import Mathlib.Data.List.Basic
import ModerationService.Library.Machine

/-!
# LogConsumer — a consumer of an append-only log with a committed offset

The entries of a log are delivered one after the other to a consumer that handles each of them by a
list of events.  Delivering an entry moves the position past it at once; the offset from which the
consumer starts again after a restart is the one committed last, and commits are made at any time,
also while an entry is being handled.  A restart may therefore deliver entries again, and it may
leave out the rest of the entry in flight.

* `deliveries_eq`: how often an entry is delivered;
* `unhandled_iff` and `lost_run`: which entries are passed over without ever being handled;
* `exactly_once`: when no restart cuts or repeats anything, every entry is handled once, in order;
* `mem_output` and `output_induction`: what holds of all events, whatever was cut.
-/

namespace Library
namespace LogConsumer

open Machine

variable {μ β ε : Type}

/-! ## The machine -/

structure Delivery (β ε : Type) where
  offset : Nat
  answer : β
  /-- the events so far -/
  emitted : List ε
  completed : Bool

/-- A restart went from `position` back to `committed`. -/
structure Rewind where
  committed : Nat
  position : Nat
  /-- the offset of the entry that was being handled -/
  cut : Option Nat

structure State (μ β ε : Type) where
  log : List μ
  /-- the offset of the entry delivered next -/
  position : Nat
  committed : Nat
  /-- the delivery being handled, and the events still to come -/
  inFlight : Option (Delivery β ε × List ε)
  /-- the deliveries before it, in order -/
  ended : List (Delivery β ε)
  rewinds : List Rewind
  /-- all events, in order -/
  output : List ε

def init : State μ β ε where
  log := []
  position := 0
  committed := 0
  inFlight := none
  ended := []
  rewinds := []
  output := []

inductive Action (μ β : Type) where
  | append (entry : μ)
  | deliver (answer : β)
  | emit
  | finish
  | commit (offset : Nat)
  | restart

def State.cut (s : State μ β ε) : List (Delivery β ε) :=
  (s.inFlight.map Prod.fst).toList

/-- The events that handling an entry causes depend on the answers from outside. -/
def step (effects : μ → β → List ε) (s : State μ β ε) : Action μ β → Option (State μ β ε)
  | .append entry => some { s with log := s.log ++ [entry] }
  | .deliver answer =>
      match s.inFlight, s.log[s.position]? with
      | none, some entry =>
          some { s with
            position := s.position + 1
            inFlight := some (⟨s.position, answer, [], false⟩, effects entry answer) }
      | _, _ => none
  | .emit =>
      match s.inFlight with
      | some (d, e :: pending) =>
          some { s with
            inFlight := some ({ d with emitted := d.emitted ++ [e] }, pending)
            output := s.output ++ [e] }
      | _ => none
  | .finish =>
      match s.inFlight with
      | some (d, []) =>
          some { s with inFlight := none, ended := s.ended ++ [{ d with completed := true }] }
      | _ => none
  | .commit offset =>
      -- an offset is committed once its entry has been delivered, and never taken back
      if s.committed ≤ offset ∧ offset ≤ s.position then
        some { s with committed := offset }
      else
        none
  | .restart =>
      some { s with
        position := s.committed
        inFlight := none
        ended := s.ended ++ s.cut
        rewinds := s.rewinds ++ [⟨s.committed, s.position, s.inFlight.map (fun f => f.1.offset)⟩] }

/-! ## What a step does -/

variable {effects : μ → β → List ε} {s s' : State μ β ε}

theorem step_deliver {answer : β} (h : step effects s (.deliver answer) = some s') :
    s.inFlight = none ∧ ∃ entry, s.log[s.position]? = some entry ∧
      s' = { s with
        position := s.position + 1
        inFlight := some (⟨s.position, answer, [], false⟩, effects entry answer) } := by
  simp only [step] at h
  split at h
  · next hflight hentry =>
      exact ⟨hflight, _, hentry, (Option.some.inj h).symm⟩
  · cases h

theorem step_emit (h : step effects s .emit = some s') :
    ∃ d e pending, s.inFlight = some (d, e :: pending) ∧
      s' = { s with
        inFlight := some ({ d with emitted := d.emitted ++ [e] }, pending)
        output := s.output ++ [e] } := by
  simp only [step] at h
  split at h
  · next d e pending hflight =>
      exact ⟨d, e, pending, hflight, (Option.some.inj h).symm⟩
  · cases h

theorem step_finish (h : step effects s .finish = some s') :
    ∃ d, s.inFlight = some (d, []) ∧
      s' = { s with inFlight := none, ended := s.ended ++ [{ d with completed := true }] } := by
  simp only [step] at h
  split at h
  · next d hflight =>
      exact ⟨d, hflight, (Option.some.inj h).symm⟩
  · cases h

theorem step_commit {offset : Nat} (h : step effects s (.commit offset) = some s') :
    (s.committed ≤ offset ∧ offset ≤ s.position) ∧ s' = { s with committed := offset } := by
  simp only [step] at h
  split_ifs at h with hoffset
  exact ⟨hoffset, (Option.some.inj h).symm⟩

/-! ## The invariant -/

/-- The events of a delivery are those of its entry, as far as it has come. -/
def Handles (effects : μ → β → List ε) (log : List μ) (d : Delivery β ε) (pending : List ε) : Prop :=
  ∃ entry, log[d.offset]? = some entry ∧ effects entry d.answer = d.emitted ++ pending

theorem Handles.append {log : List μ} {d : Delivery β ε} {pending : List ε}
    (h : Handles effects log d pending) (entries : List μ) :
    Handles effects (log ++ entries) d pending := by
  rcases h with ⟨entry, hentry, heffects⟩
  refine ⟨entry, ?_, heffects⟩
  rw [List.getElem?_append_left (List.getElem?_eq_some_iff.1 hentry).1]
  exact hentry

/-- The offsets are in order, and every delivery does what its entry asks for. -/
structure Inv (effects : μ → β → List ε) (s : State μ β ε) : Prop where
  committed_le : s.committed ≤ s.position
  position_le : s.position ≤ s.log.length
  inFlight : ∀ d pending, s.inFlight = some (d, pending) →
    d.offset + 1 = s.position ∧ d.completed = false ∧ Handles effects s.log d pending
  ended : ∀ d ∈ s.ended, ∃ rest, Handles effects s.log d rest ∧ (d.completed = true → rest = [])
  rewinds : ∀ r ∈ s.rewinds, r.committed ≤ r.position ∧ r.committed ≤ s.committed ∧
    ∀ i, r.cut = some i → i + 1 = r.position
  resumed : ∀ d pending, s.inFlight = some (d, pending) → ∀ r ∈ s.rewinds, r.committed ≤ d.offset
  output_eq : s.output = (s.ended ++ s.cut).flatMap Delivery.emitted

theorem inv_init : Inv effects init := by
  constructor <;> simp [init, State.cut]

theorem inv_append (hs : Inv effects s) (entries : List μ) :
    Inv effects { s with log := s.log ++ entries } := by
  refine { hs with position_le := ?_, inFlight := ?_, ended := ?_ }
  · simpa using Nat.le_add_right_of_le hs.position_le
  · intro d pending hflight
    rcases hs.inFlight d pending hflight with ⟨hoffset, hcompleted, hhandles⟩
    exact ⟨hoffset, hcompleted, hhandles.append entries⟩
  · intro d hd
    rcases hs.ended d hd with ⟨rest, hhandles, hrest⟩
    exact ⟨rest, hhandles.append entries, hrest⟩

theorem inv_deliver (hs : Inv effects s) {answer : β}
    (h : step effects s (.deliver answer) = some s') : Inv effects s' := by
  rcases step_deliver h with ⟨hnone, entry, hentry, rfl⟩
  have hlt : s.position < s.log.length := (List.getElem?_eq_some_iff.1 hentry).1
  have hcommitted := hs.committed_le
  refine { hs with
    committed_le := ?_
    position_le := hlt
    inFlight := ?_
    resumed := ?_
    output_eq := ?_ }
  · exact Nat.le_succ_of_le hcommitted
  · rintro d pending hflight
    cases hflight
    exact ⟨rfl, rfl, entry, hentry, by simp⟩
  · -- no restart went back further than to what had been committed by then
    rintro d pending hflight r hr
    cases hflight
    exact Nat.le_trans (hs.rewinds r hr).2.1 hcommitted
  · have houtput := hs.output_eq
    simp only [State.cut, hnone] at houtput
    simpa [State.cut] using houtput

theorem inv_emit (hs : Inv effects s) (h : step effects s .emit = some s') : Inv effects s' := by
  rcases step_emit h with ⟨d, e, pending, hflight, rfl⟩
  rcases hs.inFlight d (e :: pending) hflight with ⟨hoffset, hcompleted, entry, hentry, heffects⟩
  -- the event goes from what is pending to what has been emitted, and to the output
  refine { hs with inFlight := ?_, resumed := ?_, output_eq := ?_ }
  · rintro d' pending' hflight'
    cases hflight'
    exact ⟨hoffset, hcompleted, entry, hentry, by simpa using heffects⟩
  · rintro d' pending' hflight' r hr
    cases hflight'
    exact hs.resumed d _ hflight r hr
  · have houtput := hs.output_eq
    simp only [State.cut, hflight] at houtput
    simp [State.cut, houtput]

theorem inv_finish (hs : Inv effects s) (h : step effects s .finish = some s') :
    Inv effects s' := by
  rcases step_finish h with ⟨d, hflight, rfl⟩
  rcases hs.inFlight d [] hflight with ⟨_, _, hhandles⟩
  refine { hs with inFlight := ?_, ended := ?_, resumed := ?_, output_eq := ?_ }
  · simp
  · intro d' hd'
    rcases List.mem_append.1 hd' with hold | hnew
    · exact hs.ended d' hold
    · obtain rfl := List.mem_singleton.1 hnew
      exact ⟨[], hhandles, fun _ => rfl⟩
  · simp
  · have houtput := hs.output_eq
    simp only [State.cut, hflight] at houtput
    simpa [State.cut] using houtput

theorem inv_restart (hs : Inv effects s) :
    Inv effects { s with
      position := s.committed
      inFlight := none
      ended := s.ended ++ s.cut
      rewinds := s.rewinds ++ [⟨s.committed, s.position, s.inFlight.map (fun f => f.1.offset)⟩] } := by
  have hcut : ∀ i, s.inFlight.map (fun f => f.1.offset) = some i → i + 1 = s.position := by
    intro i hi
    rcases Option.map_eq_some_iff.1 hi with ⟨⟨d, pending⟩, hflight, rfl⟩
    exact (hs.inFlight d pending hflight).1
  refine { hs with
    committed_le := Nat.le_refl _
    position_le := ?_
    inFlight := ?_
    ended := ?_
    rewinds := ?_
    resumed := ?_
    output_eq := ?_ }
  · exact Nat.le_trans hs.committed_le hs.position_le
  · simp
  · intro d hd
    rcases List.mem_append.1 hd with hold | hnew
    · exact hs.ended d hold
    · -- what was in flight ends without being completed
      have hmem : ∃ pending, s.inFlight = some (d, pending) := by
        simpa [State.cut] using hnew
      rcases hmem with ⟨pending, hflight⟩
      rcases hs.inFlight d pending hflight with ⟨_, hcompleted, hhandles⟩
      exact ⟨pending, hhandles, by simp [hcompleted]⟩
  · intro r hr
    rcases List.mem_append.1 hr with hold | hnew
    · exact hs.rewinds r hold
    · obtain rfl := List.mem_singleton.1 hnew
      exact ⟨hs.committed_le, Nat.le_refl _, hcut⟩
  · simp
  · simpa [State.cut] using hs.output_eq

theorem inv_step (s : State μ β ε) (a : Action μ β) (s' : State μ β ε) (hs : Inv effects s)
    (h : step effects s a = some s') : Inv effects s' := by
  cases a with
  | append entry => exact Option.some.inj h ▸ inv_append hs [entry]
  | deliver answer => exact inv_deliver hs h
  | emit => exact inv_emit hs h
  | finish => exact inv_finish hs h
  | commit offset =>
      rcases step_commit h with ⟨hoffset, rfl⟩
      refine { hs with committed_le := hoffset.2, rewinds := ?_ }
      intro r hr
      rcases hs.rewinds r hr with ⟨hle, hcommitted, hcut⟩
      exact ⟨hle, Nat.le_trans hcommitted hoffset.1, hcut⟩
  | restart => exact Option.some.inj h ▸ inv_restart hs

theorem inv_run {as : List (Action μ β)} (h : run (step effects) init as = some s) :
    Inv effects s :=
  run_invariant inv_step inv_init h

theorem handles_of_mem (hinv : Inv effects s) {d : Delivery β ε} (hd : d ∈ s.ended ++ s.cut) :
    ∃ rest, Handles effects s.log d rest := by
  rcases List.mem_append.1 hd with hended | hcut
  · rcases hinv.ended d hended with ⟨rest, hhandles, _⟩
    exact ⟨rest, hhandles⟩
  · have hmem : ∃ pending, s.inFlight = some (d, pending) := by
      simpa [State.cut] using hcut
    rcases hmem with ⟨pending, hflight⟩
    exact ⟨pending, (hinv.inFlight d pending hflight).2.2⟩

/-- The log grows from outside only. -/
theorem step_log {a : Action μ β} (ha : ∀ entry, a ≠ .append entry)
    (h : step effects s a = some s') : s'.log = s.log := by
  cases a with
  | append entry => exact absurd rfl (ha entry)
  | deliver answer =>
      rcases step_deliver h with ⟨_, _, _, rfl⟩
      rfl
  | emit =>
      rcases step_emit h with ⟨_, _, _, _, rfl⟩
      rfl
  | finish =>
      rcases step_finish h with ⟨_, _, rfl⟩
      rfl
  | commit offset =>
      rcases step_commit h with ⟨_, rfl⟩
      rfl
  | restart =>
      obtain rfl := Option.some.inj h
      rfl

/-! ## How often an entry is delivered -/

/-- The deliveries of the entry at an offset, the one being handled included. -/
def State.deliveries (s : State μ β ε) (i : Nat) : Nat :=
  (s.ended ++ s.cut).countP (fun d => d.offset = i)

/-- The restart went back over the offset. -/
def Rewind.covers (i : Nat) (r : Rewind) : Bool :=
  r.committed ≤ i && i < r.position

/-- Once for being before the position, and once more for every restart that went back over it. -/
def Counted (s : State μ β ε) : Prop :=
  ∀ i, s.deliveries i = (if i < s.position then 1 else 0) + s.rewinds.countP (Rewind.covers i)

theorem counted_deliver {answer : β} (hs : Counted s)
    (h : step effects s (.deliver answer) = some s') : Counted s' := by
  rcases step_deliver h with ⟨hnone, entry, _, rfl⟩
  intro i
  have hi := hs i
  simp only [State.deliveries, State.cut, hnone, Option.map_none, Option.toList_none,
    List.append_nil] at hi
  simp only [State.deliveries, State.cut, Option.map_some, Option.toList_some, List.countP_append,
    List.countP_singleton, hi]
  -- one delivery more at the offset that the position moves past, and at no other
  rcases Nat.lt_trichotomy i s.position with hlt | rfl | hgt
  · simp [hlt, Nat.ne_of_gt hlt, Nat.lt_succ_of_lt hlt]
  · simp [Nat.add_comm]
  · simp [Nat.ne_of_lt hgt, Nat.not_lt_of_gt hgt, Nat.not_lt.2 (Nat.succ_le_of_lt hgt)]

theorem counted_restart (hinv : Inv effects s) (hs : Counted s) :
    Counted { s with
      position := s.committed
      inFlight := none
      ended := s.ended ++ s.cut
      rewinds := s.rewinds ++ [⟨s.committed, s.position, s.inFlight.map (fun f => f.1.offset)⟩] } := by
  intro i
  have hi := hs i
  have hle := hinv.committed_le
  simp only [State.deliveries] at hi
  simp only [State.deliveries, State.cut, Option.map_none, Option.toList_none, List.append_nil,
    List.countP_append, List.countP_singleton, Rewind.covers, Bool.and_eq_true,
    decide_eq_true_eq] at hi ⊢
  -- what the new position leaves out, the restart covers
  have hsplit : (if i < s.position then 1 else 0) =
      (if i < s.committed then 1 else 0) + if s.committed ≤ i ∧ i < s.position then 1 else 0 := by
    split_ifs <;> omega
  omega

theorem counted_step (hinv : Inv effects s) (hs : Counted s) {a : Action μ β}
    (h : step effects s a = some s') : Counted s' := by
  cases a with
  | append entry =>
      obtain rfl := Option.some.inj h
      exact hs
  | deliver answer => exact counted_deliver hs h
  | emit =>
      rcases step_emit h with ⟨d, e, pending, hflight, rfl⟩
      intro i
      have hi := hs i
      simp only [State.deliveries, State.cut, hflight] at hi
      simpa [State.deliveries, State.cut] using hi
  | finish =>
      rcases step_finish h with ⟨d, hflight, rfl⟩
      intro i
      have hi := hs i
      simp only [State.deliveries, State.cut, hflight] at hi
      simpa [State.deliveries, State.cut] using hi
  | commit offset =>
      rcases step_commit h with ⟨_, rfl⟩
      exact hs
  | restart =>
      obtain rfl := Option.some.inj h
      exact counted_restart hinv hs

theorem deliveries_eq {as : List (Action μ β)} (h : run (step effects) init as = some s) (i : Nat) :
    s.deliveries i = (if i < s.position then 1 else 0) + s.rewinds.countP (Rewind.covers i) := by
  have hcounted : Inv effects s ∧ Counted s := by
    refine run_invariant (I := fun s => Inv effects s ∧ Counted s) ?_ ⟨inv_init, ?_⟩ h
    · rintro s a s' ⟨hinv, hs⟩ hstep
      exact ⟨inv_step s a s' hinv hstep, counted_step hinv hs hstep⟩
    · intro i
      simp [init, State.deliveries, State.cut]
  exact hcounted.2 i

/-! ## Which entries are never handled -/

/-- Some delivery of the entry has been handled to the end. -/
def State.Handled (s : State μ β ε) (i : Nat) : Prop :=
  ∃ d ∈ s.ended, d.offset = i ∧ d.completed = true

/-- The position is past the entry, and it is not being handled. -/
def State.Passed (s : State μ β ε) (i : Nat) : Prop :=
  i < s.position ∧ ∀ d ∈ s.cut, d.offset ≠ i

/-- A restart cut the handling of the entry when its offset was already committed. -/
def State.CutAfterCommit (s : State μ β ε) (i : Nat) : Prop :=
  ∃ r ∈ s.rewinds, r.cut = some i ∧ i < r.committed

/-- Every delivery that was not completed was cut by a restart. -/
def Accounted (s : State μ β ε) : Prop :=
  ∀ i, s.ended.countP (fun d => d.offset = i ∧ d.completed = false) =
    s.rewinds.countP (fun r => r.cut = some i)

theorem accounted_restart (hinv : Inv effects s) (hs : Accounted s) :
    Accounted { s with
      position := s.committed
      inFlight := none
      ended := s.ended ++ s.cut
      rewinds := s.rewinds ++ [⟨s.committed, s.position, s.inFlight.map (fun f => f.1.offset)⟩] } := by
  intro i
  have hi := hs i
  simp only [List.countP_append, List.countP_singleton, hi]
  cases hflight : s.inFlight with
  | none => simp [State.cut, hflight]
  | some f =>
      rcases f with ⟨d, pending⟩
      have hcompleted := (hinv.inFlight d pending hflight).2.1
      simp [State.cut, hflight, hcompleted, List.countP_singleton]

theorem accounted_step (hinv : Inv effects s) (hs : Accounted s) {a : Action μ β}
    (h : step effects s a = some s') : Accounted s' := by
  cases a with
  | append entry =>
      obtain rfl := Option.some.inj h
      exact hs
  | deliver answer =>
      rcases step_deliver h with ⟨_, _, _, rfl⟩
      exact hs
  | emit =>
      rcases step_emit h with ⟨_, _, _, _, rfl⟩
      exact hs
  | finish =>
      rcases step_finish h with ⟨d, _, rfl⟩
      intro i
      simpa using hs i
  | commit offset =>
      rcases step_commit h with ⟨_, rfl⟩
      exact hs
  | restart =>
      obtain rfl := Option.some.inj h
      exact accounted_restart hinv hs

theorem accounted_run {as : List (Action μ β)} (h : run (step effects) init as = some s) :
    Accounted s := by
  have haccounted : Inv effects s ∧ Accounted s := by
    refine run_invariant (I := fun s => Inv effects s ∧ Accounted s) ?_ ⟨inv_init, ?_⟩ h
    · rintro s a s' ⟨hinv, hs⟩ hstep
      exact ⟨inv_step s a s' hinv hstep, accounted_step hinv hs hstep⟩
    · intro i
      simp [init]
  exact haccounted.2

/-- Only a restart makes the consumer handle an entry again, or leave it unfinished. -/
theorem handlings_eq {as : List (Action μ β)} (h : run (step effects) init as = some s) (i : Nat) :
    s.ended.countP (fun d => d.offset = i ∧ d.completed = true) +
        s.rewinds.countP (fun r => r.cut = some i) + s.cut.countP (fun d => d.offset = i) =
      (if i < s.position then 1 else 0) + s.rewinds.countP (Rewind.covers i) := by
  -- a delivery that has ended was completed or cut
  have hended : ∀ ds : List (Delivery β ε), ds.countP (fun d => d.offset = i) =
      ds.countP (fun d => d.offset = i ∧ d.completed = true) +
        ds.countP (fun d => d.offset = i ∧ d.completed = false) := by
    intro ds
    induction ds with
    | nil =>
        rfl
    | cons d ds ih =>
        simp only [List.countP_cons, ih]
        by_cases hoffset : d.offset = i <;> cases hcompleted : d.completed <;>
          simp [hoffset] <;> omega
  have hcount := deliveries_eq h i
  rw [State.deliveries, List.countP_append, hended s.ended, accounted_run h i] at hcount
  exact hcount

/-- What has been committed when an entry was cut stays behind the position. -/
theorem CutAfterCommit.passed (hinv : Inv effects s) {i : Nat} (hcut : s.CutAfterCommit i) :
    s.Passed i := by
  rcases hcut with ⟨r, hr, _, hcommitted⟩
  refine ⟨?_, ?_⟩
  · have hle := (hinv.rewinds r hr).2.1
    exact Nat.lt_of_lt_of_le hcommitted (Nat.le_trans hle hinv.committed_le)
  · intro d hd
    have hmem : ∃ pending, s.inFlight = some (d, pending) := by
      simpa [State.cut] using hd
    rcases hmem with ⟨pending, hflight⟩
    -- it was delivered after the restart, and so not before what had been committed
    have hresumed := hinv.resumed d pending hflight r hr
    exact Nat.ne_of_gt (Nat.lt_of_lt_of_le hcommitted hresumed)

theorem cutAfterCommit_of_unhandled {as : List (Action μ β)}
    (h : run (step effects) init as = some s) {i : Nat} (hpassed : s.Passed i)
    (hunhandled : ¬ s.Handled i) : s.CutAfterCommit i := by
  have hended : s.deliveries i = s.ended.countP (fun d => d.offset = i) := by
    have hnone : s.cut.countP (fun d => d.offset = i) = 0 :=
      List.countP_eq_zero.2 (fun d hd => by simpa using hpassed.2 d hd)
    rw [State.deliveries, List.countP_append, hnone, Nat.add_zero]
  have hnever : s.ended.countP (fun d => d.offset = i) =
      s.ended.countP (fun d => d.offset = i ∧ d.completed = false) := by
    refine List.countP_congr (fun d hd => ?_)
    have hnot : d.offset = i → d.completed = false := by
      intro hoffset
      by_contra hcompleted
      exact hunhandled ⟨d, hd, hoffset, by simpa using hcompleted⟩
    simpa using hnot
  -- more deliveries were cut than restarts went back over the entry
  have hmore : s.rewinds.countP (Rewind.covers i) < s.rewinds.countP (fun r => r.cut = some i) := by
    have hcount := deliveries_eq h i
    rw [hended, hnever, accounted_run h i, if_pos hpassed.1] at hcount
    omega
  -- unless one of them found the entry committed, each went back over it
  by_contra hkept
  refine Nat.not_lt.2 (List.countP_mono_left ?_) hmore
  intro r hr hcut
  have hcut : r.cut = some i := by
    simpa using hcut
  have hposition := ((inv_run h).rewinds r hr).2.2 i hcut
  have hle : r.committed ≤ i := by
    by_contra hlt
    exact hkept ⟨r, hr, hcut, Nat.lt_of_not_le hlt⟩
  simp [Rewind.covers, hle, ← hposition]

/-- An entry has been passed over exactly when a restart cut it after its offset was committed, and
it had not been handled before. -/
theorem unhandled_iff {as : List (Action μ β)} (h : run (step effects) init as = some s) (i : Nat) :
    (s.Passed i ∧ ¬ s.Handled i) ↔ (s.CutAfterCommit i ∧ ¬ s.Handled i) :=
  ⟨fun ⟨hpassed, hunhandled⟩ => ⟨cutAfterCommit_of_unhandled h hpassed hunhandled, hunhandled⟩,
    fun ⟨hcut, hunhandled⟩ => ⟨CutAfterCommit.passed (inv_run h) hcut, hunhandled⟩⟩

theorem lost_step (hinv : Inv effects s) {i : Nat} (hs : s.CutAfterCommit i ∧ ¬ s.Handled i)
    {a : Action μ β} (h : step effects s a = some s') :
    s'.CutAfterCommit i ∧ ¬ s'.Handled i := by
  rcases hs with ⟨hcut, hunhandled⟩
  cases a with
  | append entry =>
      obtain rfl := Option.some.inj h
      exact ⟨hcut, hunhandled⟩
  | deliver answer =>
      rcases step_deliver h with ⟨_, _, _, rfl⟩
      exact ⟨hcut, hunhandled⟩
  | emit =>
      rcases step_emit h with ⟨_, _, _, _, rfl⟩
      exact ⟨hcut, hunhandled⟩
  | finish =>
      rcases step_finish h with ⟨d, hflight, rfl⟩
      refine ⟨hcut, ?_⟩
      rintro ⟨d', hd', hoffset, hcompleted⟩
      rcases List.mem_append.1 hd' with hold | hnew
      · exact hunhandled ⟨d', hold, hoffset, hcompleted⟩
      · -- what is in flight lies at or after every commit that a restart went back to
        obtain rfl := List.mem_singleton.1 hnew
        have hpassed := CutAfterCommit.passed hinv hcut
        exact hpassed.2 d (by simp [State.cut, hflight]) hoffset
  | commit offset =>
      rcases step_commit h with ⟨_, rfl⟩
      exact ⟨hcut, hunhandled⟩
  | restart =>
      obtain rfl := Option.some.inj h
      refine ⟨?_, ?_⟩
      · rcases hcut with ⟨r, hr, hr'⟩
        exact ⟨r, List.mem_append_left _ hr, hr'⟩
      · rintro ⟨d, hd, hoffset, hcompleted⟩
        rcases List.mem_append.1 hd with hold | hnew
        · exact hunhandled ⟨d, hold, hoffset, hcompleted⟩
        · exact (CutAfterCommit.passed hinv hcut).2 d hnew hoffset

/-- What has been passed over is never handled later either. -/
theorem lost_run {as bs : List (Action μ β)} (h : run (step effects) init as = some s) {i : Nat}
    (hs : s.CutAfterCommit i ∧ ¬ s.Handled i) (h' : run (step effects) s bs = some s') :
    s'.CutAfterCommit i ∧ ¬ s'.Handled i := by
  refine (run_invariant (I := fun s => Inv effects s ∧ s.CutAfterCommit i ∧ ¬ s.Handled i) ?_
    ⟨inv_run h, hs⟩ h').2
  rintro s a s' ⟨hinv, hlost⟩ hstep
  exact ⟨inv_step s a s' hinv hstep, lost_step hinv hlost hstep⟩

/-! ## Without a restart in the middle -/

/-- The restart lost nothing and repeats nothing. -/
def Rewind.Clean (r : Rewind) : Prop :=
  r.committed = r.position ∧ r.cut = none

/-- Each entry before the position has been delivered once, in order, and all but the one in flight
have been handled to the end. -/
structure InOrder (s : State μ β ε) : Prop where
  offsets : (s.ended ++ s.cut).map Delivery.offset = List.range s.position
  completed : ∀ d ∈ s.ended, d.completed = true

theorem inOrder_step {a : Action μ β} (hs : (∀ r ∈ s.rewinds, r.Clean) → InOrder s)
    (h : step effects s a = some s') : (∀ r ∈ s'.rewinds, r.Clean) → InOrder s' := by
  cases a with
  | append entry =>
      obtain rfl := Option.some.inj h
      intro hclean
      exact ⟨(hs hclean).offsets, (hs hclean).completed⟩
  | deliver answer =>
      rcases step_deliver h with ⟨hnone, _, _, rfl⟩
      intro hclean
      have hoffsets := (hs hclean).offsets
      simp only [State.cut, hnone] at hoffsets
      refine ⟨?_, (hs hclean).completed⟩
      simpa [State.cut, List.range_succ] using hoffsets
  | emit =>
      rcases step_emit h with ⟨d, e, pending, hflight, rfl⟩
      intro hclean
      have hoffsets := (hs hclean).offsets
      simp only [State.cut, hflight] at hoffsets
      refine ⟨?_, (hs hclean).completed⟩
      simpa [State.cut] using hoffsets
  | finish =>
      rcases step_finish h with ⟨d, hflight, rfl⟩
      intro hclean
      have hoffsets := (hs hclean).offsets
      simp only [State.cut, hflight] at hoffsets
      refine ⟨by simpa [State.cut] using hoffsets, ?_⟩
      intro d' hd'
      rcases List.mem_append.1 hd' with hold | hnew
      · exact (hs hclean).completed d' hold
      · obtain rfl := List.mem_singleton.1 hnew
        rfl
  | commit offset =>
      rcases step_commit h with ⟨_, rfl⟩
      intro hclean
      exact ⟨(hs hclean).offsets, (hs hclean).completed⟩
  | restart =>
      obtain rfl := Option.some.inj h
      intro hclean
      have hbefore := hs (fun r hr => hclean r (List.mem_append_left _ hr))
      -- the restart found nothing in flight, and goes on where the position was
      have hlast := hclean ⟨s.committed, s.position, s.inFlight.map (fun f => f.1.offset)⟩ (by simp)
      have hnone : s.inFlight = none := by
        simpa using hlast.2
      have hposition : s.committed = s.position := hlast.1
      have hoffsets := hbefore.offsets
      refine ⟨?_, ?_⟩
      · simpa [State.cut, hnone, hposition] using hoffsets
      · simpa [State.cut, hnone] using hbefore.completed

theorem in_order {as : List (Action μ β)} (h : run (step effects) init as = some s)
    (hclean : ∀ r ∈ s.rewinds, r.Clean) : InOrder s := by
  refine run_invariant (I := fun s => (∀ r ∈ s.rewinds, r.Clean) → InOrder s) ?_ ?_ h hclean
  · exact fun s a s' hs hstep => inOrder_step hs hstep
  · intro _
    exact ⟨by simp [init, State.cut], by simp [init]⟩

/-- Deliveries in order of their offsets do together what their entries ask for. -/
theorem emitted_eq {log : List μ} {ds : List (Delivery β ε)} {n : Nat}
    (hoffsets : ds.map Delivery.offset = List.range n)
    (hhandles : ∀ d ∈ ds, Handles effects log d []) :
    ds.flatMap Delivery.emitted =
      (List.zipWith effects (log.take n) (ds.map Delivery.answer)).flatten := by
  -- from the end, as `List.range` grows there
  induction ds using List.reverseRecOn generalizing n with
  | nil =>
      simp
  | append_singleton ds d ih =>
      obtain rfl : n = ds.length + 1 := by
        simpa using (congrArg List.length hoffsets).symm
      have hends : ds.map Delivery.offset = List.range ds.length ∧ d.offset = ds.length := by
        simpa [List.range_succ] using hoffsets
      rcases hends with ⟨hbelow, hoffset⟩
      have hbefore := ih hbelow (fun d' hd' => hhandles d' (List.mem_append_left _ hd'))
      rcases hhandles d (by simp) with ⟨entry, hentry, heffects⟩
      have hlast : log.take (ds.length + 1) = log.take ds.length ++ [entry] := by
        rw [List.take_add_one, ← hoffset, hentry, Option.toList_some]
      have hlength : (log.take ds.length).length = (ds.map Delivery.answer).length := by
        have hlt := (List.getElem?_eq_some_iff.1 hentry).1
        simp only [List.length_take, List.length_map]
        omega
      rw [hlast, List.map_append, List.zipWith_append hlength, List.flatten_append, ← hbefore]
      simpa using heffects.symm

/-- With clean restarts only, the consumer does what handling the entries before the position one
after the other does, up to where it has come in the last of them. -/
theorem exactly_once {as : List (Action μ β)} (h : run (step effects) init as = some s)
    (hclean : ∀ r ∈ s.rewinds, r.Clean) :
    ∃ answers pending, answers.length = s.position ∧
      s.output ++ pending =
        (List.zipWith effects (s.log.take s.position) answers).flatten ∧
      (s.inFlight = none → pending = []) ∧
      ∀ d rest, s.inFlight = some (d, rest) → pending = rest := by
  have hinv := inv_run h
  have horder := in_order h hclean
  -- without a cut, every delivery before the one in flight has been completed
  have hended : ∀ d ∈ s.ended, Handles effects s.log d [] := by
    intro d hd
    rcases hinv.ended d hd with ⟨rest, hhandles, hrest⟩
    exact hrest (horder.completed d hd) ▸ hhandles
  have hoffsets := horder.offsets
  have houtput := hinv.output_eq
  cases hflight : s.inFlight with
  | none =>
      simp only [State.cut, hflight, Option.map_none, Option.toList_none, List.append_nil]
        at hoffsets houtput
      refine ⟨s.ended.map Delivery.answer, [], ?_, ?_, fun _ => rfl, by simp⟩
      · simpa using congrArg List.length hoffsets
      · rw [List.append_nil, houtput, emitted_eq hoffsets hended]
  | some f =>
      rcases f with ⟨d, pending⟩
      simp only [State.cut, hflight, Option.map_some, Option.toList_some] at hoffsets houtput
      rcases (hinv.inFlight d pending hflight).2.2 with ⟨entry, hentry, heffects⟩
      -- the delivery in flight as it will be at its end
      let d' : Delivery β ε := { d with emitted := d.emitted ++ pending }
      have hoffsets' : (s.ended ++ [d']).map Delivery.offset = List.range s.position := by
        simpa [d'] using hoffsets
      have hhandles : ∀ e ∈ s.ended ++ [d'], Handles effects s.log e [] := by
        intro e he
        rcases List.mem_append.1 he with hold | hnew
        · exact hended e hold
        · obtain rfl := List.mem_singleton.1 hnew
          exact ⟨entry, hentry, by simpa [d'] using heffects⟩
      refine ⟨(s.ended ++ [d']).map Delivery.answer, pending, ?_, ?_, by simp, ?_⟩
      · simpa using congrArg List.length hoffsets'
      · rw [← emitted_eq hoffsets' hhandles, houtput]
        simp [d']
      · rintro e rest hsame
        cases hsame
        rfl

/-! ## What holds of all events -/

/-- Every event was emitted by a delivery, whose entry asks for it. -/
theorem mem_output (hinv : Inv effects s) {e : ε} (he : e ∈ s.output) :
    ∃ d ∈ s.ended ++ s.cut, ∃ entry,
      s.log[d.offset]? = some entry ∧ e ∈ d.emitted ∧ e ∈ effects entry d.answer := by
  rw [hinv.output_eq] at he
  rcases List.mem_flatMap.1 he with ⟨d, hd, hemitted⟩
  rcases handles_of_mem hinv hd with ⟨rest, entry, hentry, heffects⟩
  refine ⟨d, hd, entry, hentry, hemitted, ?_⟩
  rw [heffects]
  exact List.mem_append_left _ hemitted

/-- The events so far are a concatenation of beginnings of what entries ask for. -/
theorem output_induction {P : List ε → Prop} (hinv : Inv effects s) (hnil : P [])
    (happend : ∀ done entry answer started rest, entry ∈ s.log →
      effects entry answer = started ++ rest → P done → P (done ++ started)) :
    P s.output := by
  have hall : ∀ d ∈ s.ended ++ s.cut, ∃ rest, Handles effects s.log d rest :=
    fun d hd => handles_of_mem hinv hd
  rw [hinv.output_eq]
  -- on the deliveries, the one in flight last
  generalize s.ended ++ s.cut = ds at hall
  induction ds using List.reverseRecOn with
  | nil =>
      exact hnil
  | append_singleton ds d ih =>
      have hbefore := ih (fun d' hd' => hall d' (List.mem_append_left _ hd'))
      rcases hall d (by simp) with ⟨rest, entry, hentry, heffects⟩
      have hlog : entry ∈ s.log := List.mem_of_getElem? hentry
      simpa using happend _ entry d.answer d.emitted rest hlog heffects hbefore

end LogConsumer
end Library
