import Mathlib.Data.List.Infix
import ModerationService.Server.Server

/-!
# Signals — when a termination signal is handled safely

A signal that comes between the publication of the server and the end of `BuildAndStart` stops a
server that is not there yet; one that comes before the publication only sets a flag, which is not
looked at until `Wait` has returned.  `handled_iff_wellTimed` says that these two are all that can go
wrong.
-/

namespace ModerationService
namespace Server

open Library Machine

/-! ## The two pointers -/

/-- Which of the pointers is set at a statement of the main thread. -/
structure Published (s : State) : Prop where
  build : s.pc = .buildAndStart → s.global_server_ptr = true
  server : s.server_ = true → s.global_server_ptr = true
  waiting : s.pc = .waiting → s.server_ = true

theorem published_init : Published init := by
  refine ⟨?_, ?_, ?_⟩ <;> simp [init]

section

variable (statement : SetUp)

@[simp] theorem next_ne_buildAndStart : statement.next ≠ .buildAndStart := by
  cases statement <;> simp [SetUp.next]

@[simp] theorem next_ne_waiting : statement.next ≠ .waiting := by
  cases statement <;> simp [SetUp.next]

end

theorem published_main {s s' : State} {ok : Bool} (hs : Published s) (h : main s ok = some s') :
    Published s' := by
  rcases hs with ⟨hbuild, hserver, hwaiting⟩
  refine ⟨?_, ?_, ?_⟩
  all_goals
    unfold main at h
    split at h <;> grind [next_ne_buildAndStart, next_ne_waiting]

theorem published_signal {s : State} (hs : Published s) : Published (signalHandler s) := by
  rcases hs with ⟨hbuild, hserver, hwaiting⟩
  refine ⟨?_, ?_, ?_⟩ <;> grind [signalHandler, stop]

theorem step_signal {s s' : State} (h : step s .signal = some s') : s' = signalHandler s := by
  have hsignal : s.pc.ended = false ∧ signalHandler s = s' := by
    simpa [step] using h
  exact hsignal.2.symm

theorem published_run {as : List Action} {s : State} (h : run step init as = some s) :
    Published s := by
  refine run_preserves (fun s a s' (_ : True) hs hstep => ?_) published_init (fun _ _ => trivial) h
  cases a with
  | main ok =>
    exact published_main hs hstep
  | signal =>
    exact step_signal hstep ▸ published_signal hs

@[simp] theorem signalHandler_requested (s : State) :
    (signalHandler s).shutdown_requested = true := by
  cases hptr : s.global_server_ptr <;> cases hserver : s.server_ <;>
    simp [signalHandler, stop, hptr, hserver]

@[simp] theorem signalHandler_stopOnNull (s : State) :
    (signalHandler s).stopOnNull = (s.stopOnNull || s.global_server_ptr && !s.server_) := by
  cases hptr : s.global_server_ptr <;> cases hserver : s.server_ <;>
    simp [signalHandler, stop, hptr, hserver]

@[simp] theorem signalHandler_server_ (s : State) : (signalHandler s).server_ = s.server_ := by
  cases hptr : s.global_server_ptr <;> cases hserver : s.server_ <;>
    simp [signalHandler, stop, hptr, hserver]

theorem signalHandler_shutdownCalled {s : State} (hs : Published s) :
    (signalHandler s).shutdownCalled = (s.shutdownCalled || s.server_) := by
  cases hserver : s.server_ with
  | false => cases hptr : s.global_server_ptr <;> simp [signalHandler, stop, hptr, hserver]
  | true => simp [signalHandler, stop, hs.server hserver, hserver]

/-- The main thread does not touch what the handler writes. -/
theorem main_frame {s s' : State} {ok : Bool} (h : main s ok = some s') :
    s'.shutdown_requested = s.shutdown_requested ∧ s'.shutdownCalled = s.shutdownCalled ∧
      s'.stopOnNull = s.stopOnNull := by
  unfold main at h
  split at h <;> grind

/-! ## What a state says about the signals so far -/

/-- A signal was handled in a state with `P`. -/
abbrev Signalled (as : List Action) (P : State → Prop) : Prop :=
  Taken step init as .signal P

/-- The fields the handler writes tell which signals have come. -/
structure Account (as : List Action) (s : State) : Prop where
  requested : s.shutdown_requested = true ↔ Signalled as (fun _ => True)
  stopped : s.shutdownCalled = true ↔ Signalled as (fun t => t.server_ = true)
  onNull : s.stopOnNull = true ↔
    Signalled as (fun t => t.global_server_ptr = true ∧ t.server_ = false)

theorem account_run {as : List Action} {s : State} (h : run step init as = some s) :
    Account as s := by
  refine run_history (J := Account) ?_ ?_ h
  · refine ⟨?_, ?_, ?_⟩ <;> simp [init, not_taken_nil]
  · intro as s a s' hrun hs hstep
    have hpublished : Published s := published_run hrun
    rcases hs with ⟨hrequested, hstopped, honNull⟩
    cases a with
    | main ok =>
      rcases main_frame hstep with ⟨h1, h2, h3⟩
      refine ⟨?_, ?_, ?_⟩ <;> simp [Signalled, taken_concat_iff hrun, *]
    | signal =>
      have hs' := step_signal hstep
      subst hs'
      refine ⟨?_, ?_, ?_⟩
      · simp [Signalled, taken_concat_iff hrun]
      · simp [Signalled, taken_concat_iff hrun, signalHandler_shutdownCalled hpublished, hstopped]
      · simp [Signalled, taken_concat_iff hrun, honNull]

/-! ## Handled signals -/

/-- `Stop` has not met a null pointer, and the main thread is not blocked after a signal. -/
structure Safe (s : State) : Prop where
  stop : s.stopOnNull = false
  wait : ¬ (s.pc = .waiting ∧ s.shutdown_requested = true ∧ s.shutdownCalled = false)

/-- Every state that the run goes through is safe. -/
def Handled (as : List Action) : Prop :=
  ∀ pre s, pre <+: as → run step init pre = some s → Safe s

/-- The signals of a run come at times the server can cope with. -/
structure WellTimed (as : List Action) : Prop where
  /-- none comes while the server is published and `server_` is null -/
  server : ¬ Signalled as (fun s => s.global_server_ptr = true ∧ s.server_ = false)
  /-- if one comes before the publication and `Wait` is entered, another one comes in between, after
  `server_` has been set -/
  wait : ∀ pre ok post s, as = pre ++ .main ok :: post → run step init pre = some s →
    s.pc = .wait → s.server_ = true → Signalled pre (fun t => t.global_server_ptr = false) →
    Signalled pre (fun t => t.server_ = true)

theorem WellTimed.of_append {as bs : List Action} (h : WellTimed (as ++ bs)) : WellTimed as := by
  refine ⟨fun htaken => h.server (htaken.append bs), ?_⟩
  intro pre ok post s hsplit
  exact h.wait pre ok (post ++ bs) s (by simp [hsplit])

/-- Where a signal came: before the publication, at the wrong time, or with a server to stop. -/
theorem signalled_cases {as : List Action} (h : Signalled as (fun _ => True)) :
    Signalled as (fun s => s.global_server_ptr = false) ∨
    Signalled as (fun s => s.global_server_ptr = true ∧ s.server_ = false) ∨
    Signalled as (fun s => s.server_ = true) := by
  rcases h with ⟨pre, post, s, hsplit, hrun, _⟩
  cases hptr : s.global_server_ptr with
  | false => exact Or.inl ⟨pre, post, s, hsplit, hrun, hptr⟩
  | true =>
    cases hserver : s.server_ with
    | false => exact Or.inr (Or.inl ⟨pre, post, s, hsplit, hrun, hptr, hserver⟩)
    | true => exact Or.inr (Or.inr ⟨pre, post, s, hsplit, hrun, hserver⟩)

/-- Only the call of `Wait` leads into it. -/
theorem main_waiting {s s' : State} {ok : Bool} (h : main s ok = some s') (hpc : s'.pc = .waiting) :
    s.pc = .wait ∧ s.server_ = true := by
  unfold main at h
  split at h <;> grind [next_ne_waiting]

theorem Safe.of_wellTimed {as : List Action} {s : State} (hrun : run step init as = some s)
    (h : WellTimed as) : Safe s := by
  refine run_history (J := fun as s => WellTimed as → Safe s) ?_ ?_ hrun h
  · intro _
    exact ⟨rfl, by simp [init]⟩
  · intro as s a s' hrun ih hstep h
    have hs : Safe s := ih h.of_append
    have haccount : Account as s := account_run hrun
    have haccount' : Account (as ++ [a]) s' := account_run (run_concat_eq_some.2 ⟨s, hrun, hstep⟩)
    have hstop : s'.stopOnNull = false := by
      by_contra hne
      exact h.server (haccount'.onNull.1 (by simpa using hne))
    refine ⟨hstop, ?_⟩
    rintro ⟨hpc, hrequested, hcalled⟩
    cases a with
    | main ok =>
      rcases main_frame hstep with ⟨hsame, hsame', _⟩
      rcases main_waiting hstep hpc with ⟨hwait, hserver⟩
      -- the flag is set when `Wait` is entered, so a signal has come before
      have hsignalled : Signalled as (fun _ => True) := haccount.requested.1 (hsame ▸ hrequested)
      have hstopped : Signalled as (fun t => t.server_ = true) := by
        rcases signalled_cases hsignalled with hearly | hnull | hserved
        · exact h.wait as ok [] s rfl hrun hwait hserver hearly
        · exact (h.server (hnull.append _)).elim
        · exact hserved
      have hcalled' : s.shutdownCalled = true := haccount.stopped.2 hstopped
      simp [hsame', hcalled'] at hcalled
    | signal =>
      have hs' := step_signal hstep
      subst hs'
      have hpublished : Published s := published_run hrun
      -- a thread that is waiting has a server, so the handler shuts it down
      have hserver : s.server_ = true := by
        simpa using (published_signal hpublished).waiting hpc
      simp [signalHandler_shutdownCalled hpublished, hserver] at hcalled

/-- A run is handled safely exactly when its signals are well timed. -/
theorem handled_iff_wellTimed {as : List Action} {s : State} (h : run step init as = some s) :
    Handled as ↔ WellTimed as := by
  constructor
  · intro hsafe
    refine ⟨?_, ?_⟩
    · intro hnull
      have hstop : s.stopOnNull = true := (account_run h).onNull.2 hnull
      simp [(hsafe as s (List.prefix_refl as) h).stop] at hstop
    · intro pre ok post t hsplit hrun hpc hserver hearly
      have hstep : step t (.main ok) = some { t with pc := .waiting } := by
        simp [step, main, hpc, hserver]
      have hrun' : run step init (pre ++ [.main ok]) = some { t with pc := .waiting } :=
        run_concat_eq_some.2 ⟨t, hrun, hstep⟩
      have hwait := (hsafe _ _ ⟨post, by simp [hsplit]⟩ hrun').wait
      have haccount : Account pre t := account_run hrun
      have hrequested : t.shutdown_requested = true := by
        rcases hearly with ⟨pre', post', u, hsplit', hrun'', _⟩
        exact haccount.requested.2 ⟨pre', post', u, hsplit', hrun'', trivial⟩
      have hcalled : t.shutdownCalled = true := by
        by_contra hne
        exact hwait ⟨rfl, hrequested, by simpa using hne⟩
      exact haccount.stopped.1 hcalled
  · rintro hwell pre t ⟨post, rfl⟩ hrun
    exact Safe.of_wellTimed hrun hwell.of_append

/-- The main thread sets up the server and publishes it. -/
def setUp : List Action :=
  List.replicate 11 (.main true)

/-- A signal that comes while the server is listening. -/
def listening : List Action :=
  setUp ++ [.main true, .main true, .signal, .main true]

theorem handled_iff_wellTimed_listening :
    Signalled listening (fun s => s.pc = .waiting) ∧ WellTimed listening := by
  have hpre : ∀ pre ∈ listening.inits, (run step init pre).all (fun s => decide
      (s.stopOnNull = false ∧
        ¬ (s.pc = .waiting ∧ s.shutdown_requested = true ∧ s.shutdownCalled = false))) = true := by
    decide
  have hsafe : Handled listening := by
    intro pre s hprefix hrun
    have hall := hpre pre ((List.mem_inits pre listening).2 hprefix)
    rw [hrun] at hall
    have hs := of_decide_eq_true hall
    exact ⟨hs.1, hs.2⟩
  have hend : (run step init listening).isSome := by
    decide
  rcases Option.isSome_iff_exists.1 hend with ⟨s, hrun⟩
  refine ⟨?_, (handled_iff_wellTimed hrun).1 hsafe⟩
  exact ⟨setUp ++ [.main true, .main true], [.main true],
    { pc := .waiting, shutdown_requested := false, global_server_ptr := true, server_ := true,
      shutdownCalled := false, stopOnNull := false }, rfl, by decide, rfl⟩

/-- A signal right after the publication stops a null pointer; a signal before it leaves the main
thread blocked in `Wait`. -/
theorem signals_mishandled :
    ¬ Handled (setUp ++ [.signal]) ∧ ¬ Handled (.signal :: setUp ++ [.main true, .main true]) := by
  constructor
  · intro h
    have hrun : run step init (setUp ++ [.signal]) = some
        { pc := .crashed, shutdown_requested := true, global_server_ptr := true, server_ := false,
          shutdownCalled := false, stopOnNull := true } := by
      decide
    have hstop := (h _ _ (List.prefix_refl _) hrun).stop
    simp at hstop
  · intro h
    have hrun : run step init (.signal :: setUp ++ [.main true, .main true]) = some
        { pc := .waiting, shutdown_requested := true, global_server_ptr := true, server_ := true,
          shutdownCalled := false, stopOnNull := false } := by
      decide
    have hwait := (h _ _ (List.prefix_refl _) hrun).wait
    simp at hwait

end Server
end ModerationService
