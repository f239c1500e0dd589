import Mathlib.Algebra.GroupWithZero.Nat
import Mathlib.Data.List.Basic
import Mathlib.Data.List.Chain

/-!
# Runs — maximal contiguous runs of a list

`runs p xs` lists the maximal contiguous runs of elements of `xs` that satisfy `p`, in order.  Three
equations determine it: an element outside `p` splits it (`runs_append_sep`), a list inside `p` is
its own only run (`runs_of_all`), and the empty list has none.

`runs_induction` is the matching induction principle.  The rules `runs_map` and `runs_filter` move
`runs` through a pointwise map and through a deletion, and `flatten_runs` counts elements run by
run.  `mem_runs_iff` says where a run occurs, and `isChain_runs_iff` speaks about neighbours in runs.
-/

namespace Library
namespace Runs

variable {α β : Type} {p : α → Bool}

/-- The maximal contiguous runs of elements satisfying `p`, in order. -/
def runs (p : α → Bool) (xs : List α) : List (List α) :=
  (xs.splitOnP (fun x => !p x)).filter (fun ys => !ys.isEmpty)

/-! ## The three equations -/

@[simp] theorem runs_nil : runs p [] = [] := by
  simp [runs]

theorem runs_append_sep {s : α} (hs : p s = false) (xs ys : List α) :
    runs p (xs ++ s :: ys) = runs p xs ++ runs p ys := by
  rw [runs, List.splitOnP_append_cons xs ys (by simp [hs]), List.filter_append]
  rfl

theorem runs_of_all {xs : List α} (h : ∀ x ∈ xs, p x = true) :
    runs p xs = [xs].filter (fun ys => !ys.isEmpty) := by
  rw [runs, List.splitOnP_eq_singleton (by simpa using h)]

theorem runs_of_all_ne_nil {xs : List α} (h : ∀ x ∈ xs, p x = true) (hne : xs ≠ []) :
    runs p xs = [xs] := by
  rw [runs_of_all h]
  simp [hne]

/-- A list either lies inside `p`, or has a first element outside it. -/
theorem all_or_sep (p : α → Bool) (xs : List α) :
    (∀ x ∈ xs, p x = true) ∨
      ∃ ys s zs, xs = ys ++ s :: zs ∧ (∀ y ∈ ys, p y = true) ∧ p s = false := by
  induction xs with
  | nil =>
      left
      simp
  | cons x xs ih =>
      cases hx : p x with
      | false =>
          exact Or.inr ⟨[], x, xs, rfl, by simp, hx⟩
      | true =>
          rcases ih with hall | ⟨ys, s, zs, rfl, hys, hs⟩
          · left
            simpa [hx] using hall
          · exact Or.inr ⟨x :: ys, s, zs, rfl, by simpa [hx] using hys, hs⟩

/-- Induction along the separators: a list inside `p`, or one run, a separator and the rest. -/
theorem runs_induction {motive : List α → Prop} (p : α → Bool)
    (all : ∀ xs, (∀ x ∈ xs, p x = true) → motive xs)
    (sep : ∀ ys s zs, (∀ y ∈ ys, p y = true) → p s = false → motive zs →
      motive (ys ++ s :: zs)) :
    ∀ xs, motive xs := by
  intro xs
  induction hn : xs.length using Nat.strongRecOn generalizing xs with
  | _ n ih =>
      rcases all_or_sep p xs with hall | ⟨ys, s, zs, rfl, hys, hs⟩
      · exact all xs hall
      · refine sep ys s zs hys hs (ih zs.length ?_ zs rfl)
        simp at hn
        omega

/-! ## Elements of runs -/

theorem flatten_runs (xs : List α) : (runs p xs).flatten = xs.filter p := by
  induction xs using runs_induction p with
  | all xs h =>
      rw [runs_of_all h, List.filter_eq_self.2 h]
      cases xs <;> simp
  | sep ys s zs hys hs ih =>
      rw [runs_append_sep hs, List.flatten_append, ih, runs_of_all hys, List.filter_append,
        List.filter_cons_of_neg (a := s) (by simp [hs]), List.filter_eq_self.2 hys]
      cases ys <;> simp

theorem countP_eq_sum_length_runs (xs : List α) :
    xs.countP p = ((runs p xs).map List.length).sum := by
  rw [List.countP_eq_length_filter, ← flatten_runs, List.length_flatten]

/-- Between two runs there is a separator. -/
theorem two_mul_length_runs_le (xs : List α) : 2 * (runs p xs).length ≤ xs.length + 1 := by
  have hall : ∀ ys : List α, (∀ y ∈ ys, p y = true) → 2 * (runs p ys).length ≤ ys.length + 1 := by
    intro ys hys
    rw [runs_of_all hys]
    cases ys <;> simp
  induction xs using runs_induction p with
  | all xs h =>
      exact hall xs h
  | sep ys s zs hys hs ih =>
      have hfirst := hall ys hys
      rw [runs_append_sep hs, List.length_append, List.length_append, List.length_cons]
      omega

/-- Runs that have at least `k` elements each take up `k + 1` places, but for the last separator. -/
theorem countP_runs_le {q : List α → Bool} {k : Nat}
    (hq : ∀ ys, q ys = true → k ≤ ys.length) (xs : List α) :
    (k + 1) * (runs p xs).countP q ≤ xs.length + 1 := by
  have hall : ∀ ys : List α, (∀ y ∈ ys, p y = true) →
      (k + 1) * (runs p ys).countP q ≤ ys.length + 1 := by
    intro ys hys
    have hle : (runs p ys).countP q ≤ [ys].countP q := by
      rw [runs_of_all hys]
      exact List.filter_sublist.countP_le
    cases hcounts : q ys with
    | false =>
        have hzero : (runs p ys).countP q = 0 := by
          simpa [hcounts] using hle
        simp [hzero]
    | true =>
        have hone : (runs p ys).countP q ≤ 1 := by
          simpa [hcounts] using hle
        calc
          (k + 1) * (runs p ys).countP q ≤ (k + 1) * 1 := Nat.mul_le_mul_left _ hone
          _ ≤ ys.length + 1 := by
            have hlength := hq ys hcounts
            omega
  induction xs using runs_induction p with
  | all xs h =>
      exact hall xs h
  | sep ys s zs hys hs ih =>
      have hfirst := hall ys hys
      rw [runs_append_sep hs, List.countP_append, Nat.mul_add, List.length_append,
        List.length_cons]
      omega

/-! ## Runs under a map and under a deletion -/

theorem runs_map (q : β → Bool) (f : α → β) (xs : List α) :
    runs q (xs.map f) = (runs (fun x => q (f x)) xs).map (List.map f) := by
  induction xs using runs_induction (fun x => q (f x)) with
  | all xs h =>
      rw [runs_of_all h, runs_of_all (by simpa using h)]
      cases xs <;> simp
  | sep ys s zs hys hs ih =>
      rw [List.map_append, List.map_cons, runs_append_sep (p := q) hs,
        runs_append_sep (p := fun x => q (f x)) hs, ih, runs_of_all hys,
        runs_of_all (by simpa using hys)]
      cases ys <;> simp

/-- Deleting the elements outside `keep` glues runs: the runs that remain are those of the elements
that are deleted or satisfy `p`, with the deleted elements taken out. -/
theorem runs_filter (keep : α → Bool) (xs : List α) :
    runs p (xs.filter keep) =
      ((runs (fun x => !keep x || p x) xs).map (List.filter keep)).filter (fun ys => !ys.isEmpty) := by
  -- inside a run only the deletion acts
  have hrun : ∀ ys : List α, (∀ y ∈ ys, (!keep y || p y) = true) →
      runs p (ys.filter keep) = [ys.filter keep].filter (fun ys => !ys.isEmpty) := by
    intro ys hys
    refine runs_of_all ?_
    intro y hy
    have h := hys y (List.mem_of_mem_filter hy)
    simpa [(List.mem_filter.1 hy).2] using h
  induction xs using runs_induction (fun x => !keep x || p x) with
  | all xs h =>
      rw [hrun xs h, runs_of_all h]
      cases xs <;> simp
  | sep ys s zs hys hs ih =>
      -- a separator is neither deleted nor in `p`, so it still separates after the deletion
      have hkeep : keep s = true := by
        simp at hs
        exact hs.1
      have hp : p s = false := by
        simp at hs
        exact hs.2
      rw [List.filter_append, List.filter_cons_of_pos hkeep, runs_append_sep hp, hrun ys hys, ih,
        runs_append_sep (p := fun x => !keep x || p x) hs, runs_of_all hys, ← List.filter_append]
      cases ys <;> simp

/-! ## Where runs occur -/

theorem runs_append_of_last {pre : List α} (hpre : ∀ x ∈ pre.getLast?, p x = false) (xs : List α) :
    runs p (pre ++ xs) = runs p pre ++ runs p xs := by
  rcases List.eq_nil_or_concat pre with rfl | ⟨pre, s, rfl⟩
  · simp
  · have hs : p s = false := hpre s (by simp)
    have hpre' : runs p (pre ++ [s]) = runs p pre := by
      have h := runs_append_sep hs pre []
      simpa using h
    rw [List.concat_eq_append, hpre', List.append_assoc, List.singleton_append,
      runs_append_sep hs]

theorem mem_runs_of_all {xs ys : List α} (h : ∀ x ∈ xs, p x = true) :
    ys ∈ runs p xs ↔ ys = xs ∧ ys ≠ [] := by
  rw [runs_of_all h]
  simp [List.mem_filter]

/-- A run at the start of a list ends where the next element is not in `p`. -/
theorem runs_append_of_head {ys post : List α} (hne : ys ≠ []) (hall : ∀ y ∈ ys, p y = true)
    (hpost : ∀ x ∈ post.head?, p x = false) : runs p (ys ++ post) = ys :: runs p post := by
  cases post with
  | nil =>
      simp [runs_of_all_ne_nil hall hne]
  | cons s post =>
      have hs : p s = false := hpost s rfl
      have hsep : runs p (s :: post) = runs p post := by
        have h := runs_append_sep hs [] post
        simpa using h
      rw [runs_append_sep hs, runs_of_all_ne_nil hall hne, hsep]
      rfl

theorem last_append_sep {s : α} {pre : List α} (hs : p s = false)
    (hpre : ∀ x ∈ pre.getLast?, p x = false) (zs : List α) :
    ∀ x ∈ (zs ++ s :: pre).getLast?, p x = false := by
  intro x hx
  cases hlast : pre.getLast? with
  | none =>
      have hnil : pre = [] := by
        simpa using hlast
      have hsame : s = x := by
        simpa [hnil] using hx
      exact hsame ▸ hs
  | some y =>
      have hsame : y = x := by
        simpa [List.getLast?_append, List.getLast?_cons, hlast] using hx
      exact hpre x (by simp [hlast, hsame])

/-- A run is a non-empty part inside `p`, and neither neighbour of it satisfies `p`. -/
theorem mem_runs_iff {ys xs : List α} :
    ys ∈ runs p xs ↔ ys ≠ [] ∧ (∀ y ∈ ys, p y = true) ∧ ∃ pre post, xs = pre ++ ys ++ post ∧
      (∀ x ∈ pre.getLast?, p x = false) ∧ (∀ x ∈ post.head?, p x = false) := by
  constructor
  · intro h
    induction xs using runs_induction p with
    | all xs hxs =>
        rcases (mem_runs_of_all hxs).1 h with ⟨rfl, hne⟩
        exact ⟨hne, hxs, [], [], by simp, by simp, by simp⟩
    | sep zs s rest hzs hs ih =>
        rw [runs_append_sep hs] at h
        rcases List.mem_append.1 h with hfirst | hrest
        · rcases (mem_runs_of_all hzs).1 hfirst with ⟨rfl, hne⟩
          exact ⟨hne, hzs, [], s :: rest, by simp, by simp, by simpa using hs⟩
        · rcases ih hrest with ⟨hne, hall, pre, post, rfl, hpre, hpost⟩
          exact ⟨hne, hall, zs ++ s :: pre, post, by simp, last_append_sep hs hpre zs, hpost⟩
  · rintro ⟨hne, hall, pre, post, rfl, hpre, hpost⟩
    rw [List.append_assoc, runs_append_of_last hpre, runs_append_of_head hne hall hpost]
    simp

section Sublist

variable {q r : α → Bool} (hr : ∀ x, q x = true → r x = true → p x = true)

include hr

theorem sublist_runs_of_all {xs : List α} (h : ∀ x ∈ xs, q x = true) :
    ((runs q xs).filter (fun run => run.all r)).Sublist (runs p xs) := by
  rw [runs_of_all h]
  cases hall : xs.all r with
  | false =>
      have hnone : ([xs].filter (fun ys => !ys.isEmpty)).filter (fun run => run.all r) = [] := by
        cases xs <;> simp_all
      rw [hnone]
      exact List.nil_sublist _
  | true =>
      have hinside : ∀ x ∈ xs, p x = true :=
        fun x hx => hr x (h x hx) (List.all_eq_true.1 hall x hx)
      rw [runs_of_all hinside]
      exact List.filter_sublist

/-- A run of a weaker predicate that lies inside `p` is a run of `p`. -/
theorem sublist_runs (hpq : ∀ x, p x = true → q x = true) (xs : List α) :
    ((runs q xs).filter (fun run => run.all r)).Sublist (runs p xs) := by
  induction xs using runs_induction q with
  | all xs h =>
      exact sublist_runs_of_all hr h
  | sep ys s zs hys hs ih =>
      have hps : p s = false := by
        cases hp : p s with
        | false => rfl
        | true => simp [hpq s hp] at hs
      rw [runs_append_sep hs, runs_append_sep hps, List.filter_append]
      exact (sublist_runs_of_all hr hys).append ih

end Sublist

/-- Neighbours in a run are neighbours in the list that both satisfy `p`. -/
theorem isChain_runs_iff {R : α → α → Prop} (xs : List α) :
    (∀ ys ∈ runs p xs, ys.IsChain R) ↔
      xs.IsChain (fun a b => p a = true → p b = true → R a b) := by
  have hall : ∀ xs : List α, (∀ x ∈ xs, p x = true) → ((∀ ys ∈ runs p xs, ys.IsChain R) ↔
      xs.IsChain (fun a b => p a = true → p b = true → R a b)) := by
    intro xs h
    have hchain : xs.IsChain (fun a b => p a = true → p b = true → R a b) ↔ xs.IsChain R := by
      refine List.IsChain.iff_of_mem_imp (fun a b ha hb => ?_)
      simp [h a ha, h b hb]
    rw [runs_of_all h, hchain]
    cases xs <;> simp
  induction xs using runs_induction p with
  | all xs h =>
      exact hall xs h
  | sep ys s zs hys hs ih =>
      have hsep : (s :: zs).IsChain (fun a b => p a = true → p b = true → R a b) ↔
          zs.IsChain (fun a b => p a = true → p b = true → R a b) := by
        simp [List.isChain_cons, hs]
      rw [runs_append_sep hs, List.forall_mem_append, hall ys hys, List.isChain_append, hsep]
      simp [hs, ih]

end Runs
end Library
