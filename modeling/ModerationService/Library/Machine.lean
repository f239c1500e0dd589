import Mathlib.Data.List.Induction

/-!
# Machine — runs of a partial step function

A machine is a function `step : σ → α → Option σ`; `none` means that the action cannot be taken in
the state.

* `run step s as` takes the actions of a list, one after the other;
* `run_preserves` is the invariant rule: what every permitted step preserves, every run of permitted
  actions preserves (`run_invariant` where every action is permitted);
* `run_countP_le` is the rule for a rank that the steps take something from;
* `run_history` is the invariant rule for a property of the state together with the actions taken so far;
* `Taken` says that an action of a run was taken in a state with a given property.
-/

namespace Library
namespace Machine

variable {σ α : Type} {step : σ → α → Option σ}

def run (step : σ → α → Option σ) : σ → List α → Option σ
  | s, [] => some s
  | s, a :: as => (step s a).bind (fun s' => run step s' as)

@[simp] theorem run_nil (s : σ) : run step s [] = some s := rfl

theorem run_cons (s : σ) (a : α) (as : List α) :
    run step s (a :: as) = (step s a).bind (fun s' => run step s' as) := rfl

theorem run_append (s : σ) (as bs : List α) :
    run step s (as ++ bs) = (run step s as).bind (fun s' => run step s' bs) := by
  induction as generalizing s with
  | nil =>
      simp
  | cons a as ih =>
      cases hstep : step s a with
      | none =>
          simp [run_cons, hstep]
      | some s' =>
          simpa [run_cons, hstep] using ih s'

/-- The last action of a run is a step from the state before it. -/
theorem run_concat_eq_some {s s' : σ} {as : List α} {a : α} :
    run step s (as ++ [a]) = some s' ↔ ∃ t, run step s as = some t ∧ step t a = some s' := by
  simp [run_append, run_cons, Option.bind_eq_some_iff]

theorem run_cons_eq_some {s s' : σ} {as : List α} {a : α} :
    run step s (a :: as) = some s' ↔ ∃ t, step s a = some t ∧ run step t as = some s' := by
  simp [run_cons, Option.bind_eq_some_iff]

/-! ## Induction along a run -/

/-- The invariant rule, for runs that only take permitted actions. -/
theorem run_preserves {I : σ → Prop} {permitted : α → Prop}
    (hstep : ∀ s a s', permitted a → I s → step s a = some s' → I s') {s s' : σ} {as : List α}
    (hs : I s) (has : ∀ a ∈ as, permitted a) (h : run step s as = some s') : I s' := by
  induction as generalizing s with
  | nil =>
      have hsame : s = s' := by
        simpa using h
      exact hsame ▸ hs
  | cons a as ih =>
      rcases run_cons_eq_some.1 h with ⟨t, hfirst, hrest⟩
      have ht : I t := hstep s a t (has a (by simp)) hs hfirst
      exact ih ht (fun b hb => has b (List.mem_cons_of_mem a hb)) hrest

/-- The invariant rule, when every action is permitted. -/
theorem run_invariant {I : σ → Prop} (hstep : ∀ s a s', I s → step s a = some s' → I s') {s s' : σ}
    {as : List α} (hs : I s) (h : run step s as = some s') : I s' :=
  run_preserves (fun s a s' (_ : True) => hstep s a s') hs (fun _ _ => trivial) h

/-- What every permitted step takes from a rank, when it is one of those that count, bounds how many
of them a run takes. -/
theorem run_countP_le {I : σ → Prop} {permitted : α → Prop} (rank : σ → Nat) (counts : α → Bool)
    (hstep : ∀ s a s', permitted a → I s → step s a = some s' →
      I s' ∧ (if counts a then 1 else 0) + rank s' ≤ rank s) {s s' : σ} {as : List α} (hs : I s)
    (has : ∀ a ∈ as, permitted a) (h : run step s as = some s') :
    as.countP counts + rank s' ≤ rank s := by
  induction as generalizing s with
  | nil =>
      have hsame : s = s' := by
        simpa using h
      simp [hsame]
  | cons a as ih =>
      rcases run_cons_eq_some.1 h with ⟨t, hfirst, hrest⟩
      rcases hstep s a t (has a (by simp)) hs hfirst with ⟨ht, hle⟩
      have hbound := ih ht (fun b hb => has b (List.mem_cons_of_mem a hb)) hrest
      rw [List.countP_cons]
      omega

/-- The invariant rule for a property of the state and of the actions that led to it. -/
theorem run_history {s₀ : σ} {J : List α → σ → Prop} (hinit : J [] s₀)
    (hstep : ∀ as s a s', run step s₀ as = some s → J as s → step s a = some s' →
      J (as ++ [a]) s') {as : List α} {s : σ} (h : run step s₀ as = some s) : J as s := by
  -- from the end, since the history grows there
  induction as using List.reverseRecOn generalizing s with
  | nil =>
      have hsame : s₀ = s := by
        simpa using h
      exact hsame ▸ hinit
  | append_singleton as a ih =>
      rcases run_concat_eq_some.1 h with ⟨t, hrun, hlast⟩
      exact hstep as t a s hrun (ih hrun) hlast

/-! ## Where an action was taken -/

/-- Along the run of `as` from `s₀`, the action `a` was taken in some state with `P`. -/
def Taken (step : σ → α → Option σ) (s₀ : σ) (as : List α) (a : α) (P : σ → Prop) : Prop :=
  ∃ pre post s, as = pre ++ a :: post ∧ run step s₀ pre = some s ∧ P s

section Taken

variable {s₀ : σ} {a : α} {P : σ → Prop}

theorem not_taken_nil : ¬ Taken step s₀ [] a P := by
  rintro ⟨pre, post, s, hsplit, _⟩
  simp at hsplit

theorem Taken.append {as : List α} (h : Taken step s₀ as a P) (bs : List α) :
    Taken step s₀ (as ++ bs) a P := by
  rcases h with ⟨pre, post, s, rfl, hrun, hs⟩
  exact ⟨pre, post ++ bs, s, by simp, hrun, hs⟩

theorem Taken.last {as : List α} {s : σ} (h : run step s₀ as = some s) (hs : P s) :
    Taken step s₀ (as ++ [a]) a P :=
  ⟨as, [], s, rfl, h, hs⟩

/-- An action of a longer run was taken before its last step, or is that step. -/
theorem taken_concat_iff {as : List α} {b : α} {s : σ} (h : run step s₀ as = some s) :
    Taken step s₀ (as ++ [b]) a P ↔ Taken step s₀ as a P ∨ b = a ∧ P s := by
  constructor
  · rintro ⟨pre, post, t, hsplit, hrun, ht⟩
    rcases List.eq_nil_or_concat post with rfl | ⟨post, c, rfl⟩
    · right
      have hends := List.append_inj' hsplit rfl
      rcases hends with ⟨rfl, hlast⟩
      have hsame : s = t := by
        simpa [h] using hrun
      exact ⟨by simpa using hlast, hsame ▸ ht⟩
    · left
      have hsplit' : as ++ [b] = (pre ++ a :: post) ++ [c] := by
        simpa using hsplit
      have hends := List.append_inj' hsplit' rfl
      exact ⟨pre, post, t, hends.1, hrun, ht⟩
  · rintro (htaken | ⟨rfl, hs⟩)
    · exact htaken.append [b]
    · exact Taken.last h hs

end Taken

end Machine
end Library
