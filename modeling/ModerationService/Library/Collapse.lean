import Mathlib.Data.List.Destutter
import Mathlib.Data.List.SplitBy
import ModerationService.Library.Runs

/-!
# Collapse — squeezing blanks and dropping repeats

Two one-pass collapses of a list, each with the state its loop carries:

* `squeeze w s skip` replaces every run of elements satisfying `w` by one `s`, and drops the run
  when `skip` says that a blank would be redundant;
* `dropRepeats prev` drops an element equal to the last one kept, starting from `prev`.

Both leave the runs of any predicate that blanks and the sentinel do not satisfy in place
(`runs_squeeze`, `runs_dropRepeats`), neither sees how often an element is repeated
(`Stretch.dropRepeats_squeeze`), and neither changes a text that it leaves nothing to do in
(`squeeze_eq_self`, `dropRepeats_eq_self`).  Away from its sentinel, dropping repeats keeps the
heads of the runs of equal elements (`dropRepeats_eq_runHeads`).
-/

namespace Library
namespace Collapse

open Runs

variable {α : Type}

/-! ## Squeezing blanks -/

def squeeze (w : α → Bool) (s : α) : Bool → List α → List α
  | _, [] => []
  | skip, x :: xs =>
      if w x then
        if skip then squeeze w s true xs else s :: squeeze w s true xs
      else
        x :: squeeze w s false xs

section Squeeze

variable {w p : α → Bool} {s : α}

theorem squeeze_other {x : α} (hx : w x = false) (skip : Bool) (xs : List α) :
    squeeze w s skip (x :: xs) = x :: squeeze w s false xs := by
  simp [squeeze, hx]

theorem squeeze_skipped {x : α} (hx : w x = true) (xs : List α) :
    squeeze w s true (x :: xs) = squeeze w s true xs := by
  simp [squeeze, hx]

theorem squeeze_blank {x : α} (hx : w x = true) (xs : List α) :
    squeeze w s false (x :: xs) = s :: squeeze w s true xs := by
  simp [squeeze, hx]

theorem squeeze_append_of_none {ys : List α} (hys : ∀ y ∈ ys, w y = false) (skip : Bool)
    (zs : List α) :
    squeeze w s skip (ys ++ zs) = ys ++ squeeze w s (skip && ys.isEmpty) zs := by
  induction ys generalizing skip with
  | nil =>
      simp
  | cons y ys ih =>
      have hy : w y = false := hys y (by simp)
      have hrest : ∀ y ∈ ys, w y = false := fun z hz => hys z (by simp [hz])
      rw [List.cons_append, squeeze_other hy, ih hrest]
      simp

theorem squeeze_of_none {ys : List α} (hys : ∀ y ∈ ys, w y = false) (skip : Bool) :
    squeeze w s skip ys = ys := by
  have h := squeeze_append_of_none (s := s) hys skip []
  simpa [squeeze] using h

/-- The only blank that comes out is the one put in. -/
theorem mem_squeeze {x : α} {skip : Bool} {xs : List α} (h : x ∈ squeeze w s skip xs) :
    x = s ∨ x ∈ xs ∧ w x = false := by
  induction xs generalizing skip with
  | nil =>
      simp [squeeze] at h
  | cons y ys ih =>
      simp only [squeeze] at h
      split_ifs at h with hy hskip
      · exact (ih h).imp_right (And.imp_left (List.mem_cons_of_mem y))
      · rcases List.mem_cons.1 h with rfl | h
        · exact Or.inl rfl
        · exact (ih h).imp_right (And.imp_left (List.mem_cons_of_mem y))
      · rcases List.mem_cons.1 h with rfl | h
        · simp [hy]
        · exact (ih h).imp_right (And.imp_left (List.mem_cons_of_mem y))

/-- While blanks are skipped, the first element that comes out is no blank. -/
theorem head_squeeze {x : α} {xs : List α} (h : x ∈ (squeeze w s true xs).head?) : w x = false := by
  induction xs with
  | nil =>
      simp [squeeze] at h
  | cons y ys ih =>
      cases hy : w y with
      | true =>
          rw [squeeze_skipped hy] at h
          exact ih h
      | false =>
          have hsame : y = x := by
            simpa [squeeze_other hy] using h
          exact hsame ▸ hy

/-- A text without a blank to replace, to merge or to skip stays. -/
theorem squeeze_eq_self {skip : Bool} {xs : List α} (hblank : ∀ x ∈ xs, w x = true → x = s)
    (hchain : xs.IsChain (fun a b => ¬ (w a = true ∧ w b = true)))
    (hskip : skip = true → ∀ x ∈ xs.head?, w x = false) : squeeze w s skip xs = xs := by
  induction xs generalizing skip with
  | nil =>
      rfl
  | cons x xs ih =>
      rcases List.isChain_cons.1 hchain with ⟨hnext, hrest⟩
      have hblank' : ∀ y ∈ xs, w y = true → y = s :=
        fun y hy => hblank y (List.mem_cons_of_mem x hy)
      cases hx : w x with
      | false =>
          rw [squeeze_other hx, ih hblank' hrest (by simp)]
      | true =>
          have hfalse : skip = false := by
            cases hs : skip with
            | false => rfl
            | true => simp [hskip hs x rfl] at hx
          have hhead : ∀ y ∈ xs.head?, w y = false := by
            intro y hy
            simpa [hx] using hnext y hy
          rw [hfalse, squeeze_blank hx, ih hblank' hrest (fun _ => hhead),
            hblank x (by simp) hx]

/-- Squeezing blanks leaves every run of `p` in place when no blank satisfies `p`. -/
theorem runs_squeeze (hw : ∀ x, w x = true → p x = false) (hs : p s = false) (skip : Bool)
    (xs : List α) : runs p (squeeze w s skip xs) = runs p xs := by
  have hnone : ∀ ys : List α, (∀ y ∈ ys, p y = true) → ∀ y ∈ ys, w y = false := by
    intro ys hys y hy
    cases hwy : w y with
    | false =>
        rfl
    | true =>
        exact absurd (hys y hy) (by simp [hw y hwy])
  induction xs using runs_induction p generalizing skip with
  | all xs h =>
      rw [squeeze_of_none (hnone xs h)]
  | sep ys t zs hys ht ih =>
      rw [squeeze_append_of_none (hnone ys hys), runs_append_sep ht]
      -- a separator that is a blank may be dropped, but only when nothing stands before it
      cases hwt : w t with
      | false =>
          rw [squeeze_other hwt, runs_append_sep ht, ih]
      | true =>
          cases hskip : skip && ys.isEmpty with
          | false =>
              rw [squeeze_blank hwt, runs_append_sep hs, ih]
          | true =>
              have hnil : ys = [] := by
                simp at hskip
                exact hskip.2
              rw [squeeze_skipped hwt, hnil, List.nil_append, ih, runs_nil, List.nil_append]

end Squeeze

/-! ## Dropping repeats -/

/-- Without adjacent repeats in the image there are none in the list. -/
theorem isChain_of_map {β : Type} {f : α → β} {xs : List α}
    (h : (xs.map f).IsChain (· ≠ ·)) : xs.IsChain (· ≠ ·) := by
  refine ((List.isChain_map f).1 h).imp ?_
  intro a b hab heq
  exact hab (congrArg f heq)

section DropRepeats

variable [DecidableEq α] {p : α → Bool}

def dropRepeats : α → List α → List α
  | _, [] => []
  | prev, x :: xs => if x ≠ prev then x :: dropRepeats x xs else dropRepeats prev xs

theorem cons_dropRepeats (x : α) (xs : List α) :
    x :: dropRepeats x xs = (x :: xs).destutter (· ≠ ·) := by
  rw [List.destutter_cons']
  induction xs generalizing x with
  | nil =>
      rfl
  | cons y ys ih =>
      by_cases h : y = x
      · subst h
        simp [dropRepeats, ih]
      · have h' : x ≠ y := fun e => h e.symm
        simp [dropRepeats, h, h', ih]

/-- Away from the sentinel, dropping repeats is destuttering. -/
theorem dropRepeats_eq_destutter {prev : α} {xs : List α} (h : xs.head? ≠ some prev) :
    dropRepeats prev xs = xs.destutter (· ≠ ·) := by
  cases xs with
  | nil =>
      rfl
  | cons x xs =>
      have hx : x ≠ prev := by
        simpa using h
      simp only [dropRepeats]
      rw [if_pos hx, cons_dropRepeats]

theorem dropRepeats_sublist (prev : α) (xs : List α) : (dropRepeats prev xs).Sublist xs := by
  induction xs generalizing prev with
  | nil =>
      exact List.Sublist.slnil
  | cons y ys ih =>
      rw [dropRepeats]
      split_ifs
      · exact (ih y).cons_cons y
      · exact (ih prev).cons y

theorem mem_dropRepeats {x prev : α} {xs : List α} (h : x ∈ dropRepeats prev xs) : x ∈ xs :=
  (dropRepeats_sublist prev xs).subset h

theorem isChain_cons_dropRepeats (prev : α) (xs : List α) :
    (prev :: dropRepeats prev xs).IsChain (· ≠ ·) := by
  rw [cons_dropRepeats]
  exact List.isChain_destutter _ _

theorem isChain_dropRepeats (prev : α) (xs : List α) : (dropRepeats prev xs).IsChain (· ≠ ·) :=
  (isChain_cons_dropRepeats prev xs).tail

/-- A text without repeats stays. -/
theorem dropRepeats_eq_self {prev : α} {xs : List α} (h : (prev :: xs).IsChain (· ≠ ·)) :
    dropRepeats prev xs = xs := by
  have hcons : prev :: dropRepeats prev xs = prev :: xs := by
    rw [cons_dropRepeats, List.destutter_eq_self_iff]
    exact h
  exact List.tail_eq_of_cons_eq hcons

/-- The first element stays when it is not the sentinel. -/
theorem head?_dropRepeats {prev : α} {xs : List α} (h : prev ∉ xs) :
    (dropRepeats prev xs).head? = xs.head? := by
  cases xs with
  | nil =>
      rfl
  | cons x xs =>
      have hne : x ≠ prev := by
        rintro rfl
        simp at h
      simp [dropRepeats, hne]

/-- Dropping repeats inside a run, up to a separator that differs from everything in it. -/
theorem dropRepeats_append_sep {prev t : α} {ys : List α} (hys : t ∉ ys) (hprev : t ≠ prev ∨ ys ≠ [])
    (zs : List α) :
    dropRepeats prev (ys ++ t :: zs) = dropRepeats prev ys ++ t :: dropRepeats t zs := by
  induction ys generalizing prev with
  | nil =>
      have ht : t ≠ prev := hprev.resolve_right (by simp)
      simp [dropRepeats, ht]
  | cons y ys ih =>
      have hne : t ≠ y := fun e => hys (by simp [e])
      have hnot : t ∉ ys := fun e => hys (by simp [e])
      by_cases hy : y = prev
      · subst hy
        simp [dropRepeats, ih hnot (Or.inl hne)]
      · simp [dropRepeats, hy, ih hnot (Or.inl hne)]

/-- Dropping repeats collapses every run of `p` on its own, when the sentinel is outside `p`. -/
theorem runs_dropRepeats {prev : α} (hprev : p prev = false) (xs : List α) :
    runs p (dropRepeats prev xs) = (runs p xs).map (List.destutter (· ≠ ·)) := by
  have hrun : ∀ (prev : α) (ys : List α), p prev = false → (∀ y ∈ ys, p y = true) →
      runs p (dropRepeats prev ys) = (runs p ys).map (List.destutter (· ≠ ·)) := by
    intro prev ys hprev hys
    have hhead : ys.head? ≠ some prev := by
      intro e
      have := hys prev (List.mem_of_mem_head? e)
      simp [hprev] at this
    have hall : ∀ y ∈ ys.destutter (· ≠ ·), p y = true := fun y hy =>
      hys y ((List.destutter_sublist _ ys).subset hy)
    rw [dropRepeats_eq_destutter hhead, runs_of_all hall, runs_of_all hys]
    cases ys with
    | nil =>
        rfl
    | cons y ys =>
        simp [List.destutter_eq_nil]
  induction xs using runs_induction p generalizing prev with
  | all xs h =>
      exact hrun prev xs hprev h
  | sep ys t zs hys ht ih =>
      have hmem : t ∉ ys := by
        intro e
        have := hys t e
        simp [ht] at this
      rw [runs_append_sep ht, List.map_append]
      -- a separator is dropped only when it repeats the one right before it, and the run is empty
      by_cases hfirst : t ≠ prev ∨ ys ≠ []
      · rw [dropRepeats_append_sep hmem hfirst, runs_append_sep ht, hrun prev ys hprev hys, ih ht]
      · push Not at hfirst
        rcases hfirst with ⟨rfl, rfl⟩
        simp [dropRepeats, ih ht]

end DropRepeats

/-! ## Stretching -/

/-- `Stretch xs ys`: the list `ys` repeats every element of `xs` some positive number of times. -/
inductive Stretch : List α → List α → Prop where
  | nil : Stretch [] []
  | cons (x : α) (n : Nat) {xs ys : List α} :
      Stretch xs ys → Stretch (x :: xs) (List.replicate (n + 1) x ++ ys)

namespace Stretch

variable {xs ys xs' ys' : List α}

theorem append (h : Stretch xs ys) (h' : Stretch xs' ys') : Stretch (xs ++ xs') (ys ++ ys') := by
  induction h with
  | nil =>
      exact h'
  | cons x n _ ih =>
      rw [List.cons_append, List.append_assoc]
      exact Stretch.cons x n ih

theorem singleton (x : α) (n : Nat) : Stretch [x] (List.replicate (n + 1) x) := by
  simpa using Stretch.cons x n Stretch.nil

theorem refl (xs : List α) : Stretch xs xs := by
  induction xs with
  | nil =>
      exact Stretch.nil
  | cons x xs ih =>
      exact Stretch.cons x 0 ih

theorem mem {x : α} (h : Stretch xs ys) (hx : x ∈ ys) : x ∈ xs := by
  induction h with
  | nil =>
      exact hx
  | cons y n _ ih =>
      rcases List.mem_append.1 hx with hx | hx
      · rw [List.eq_of_mem_replicate hx]
        exact List.mem_cons_self
      · exact List.mem_cons_of_mem y (ih hx)

theorem reverse (h : Stretch xs ys) : Stretch xs.reverse ys.reverse := by
  induction h with
  | nil =>
      exact Stretch.nil
  | cons x n _ ih =>
      rw [List.reverse_cons, List.reverse_append, List.reverse_replicate]
      exact ih.append (singleton x n)

theorem filter (keep : α → Bool) (h : Stretch xs ys) : Stretch (xs.filter keep) (ys.filter keep) := by
  induction h with
  | nil =>
      exact Stretch.nil
  | cons x n _ ih =>
      rw [List.filter_append, List.filter_replicate]
      cases hx : keep x with
      | false =>
          simpa [hx] using ih
      | true =>
          simpa [hx] using Stretch.cons x n ih

theorem dropWhile (w : α → Bool) (h : Stretch xs ys) :
    Stretch (xs.dropWhile w) (ys.dropWhile w) := by
  induction h with
  | nil =>
      exact Stretch.nil
  | cons x n h ih =>
      cases hx : w x with
      | false =>
          rw [List.replicate_succ, List.cons_append, List.dropWhile_cons_of_neg (by simp [hx]),
            List.dropWhile_cons_of_neg (by simp [hx]), ← List.cons_append, ← List.replicate_succ]
          exact Stretch.cons x n h
      | true =>
          rw [List.dropWhile_cons_of_pos hx, List.dropWhile_append_of_pos (by simp [hx])]
          exact ih

theorem squeeze_replicate_blank {w : α → Bool} {s x : α} (hx : w x = true) (n : Nat)
    (ys : List α) :
    Collapse.squeeze w s true (List.replicate n x ++ ys) = Collapse.squeeze w s true ys := by
  induction n with
  | zero =>
      rfl
  | succ n ih =>
      rw [List.replicate_succ, List.cons_append, squeeze_skipped hx, ih]

theorem squeeze_replicate_other {w : α → Bool} {s x : α} (hx : w x = false) (n : Nat)
    (ys : List α) :
    Collapse.squeeze w s false (List.replicate n x ++ ys) =
      List.replicate n x ++ Collapse.squeeze w s false ys := by
  induction n with
  | zero =>
      rfl
  | succ n ih =>
      rw [List.replicate_succ, List.cons_append, squeeze_other hx, ih, List.cons_append]

theorem squeeze {w : α → Bool} {s : α} (skip : Bool) (h : Stretch xs ys) :
    Stretch (Collapse.squeeze w s skip xs) (Collapse.squeeze w s skip ys) := by
  induction h generalizing skip with
  | nil =>
      exact Stretch.nil
  | cons x n _ ih =>
      rw [List.replicate_succ, List.cons_append]
      cases hx : w x with
      | false =>
          -- outside `w` every repetition is kept
          rw [squeeze_other hx, squeeze_other hx, squeeze_replicate_other hx, ← List.cons_append,
            ← List.replicate_succ]
          exact Stretch.cons x n (ih false)
      | true =>
          cases skip with
          | false =>
              rw [squeeze_blank hx, squeeze_blank hx, squeeze_replicate_blank hx]
              exact Stretch.cons s 0 (ih true)
          | true =>
              rw [squeeze_skipped hx, squeeze_skipped hx, squeeze_replicate_blank hx]
              exact ih true

theorem dropRepeats_replicate [DecidableEq α] (x : α) (n : Nat) (ys : List α) :
    Collapse.dropRepeats x (List.replicate n x ++ ys) = Collapse.dropRepeats x ys := by
  induction n with
  | zero =>
      rfl
  | succ n ih =>
      simp [List.replicate_succ, Collapse.dropRepeats, ih]

theorem dropRepeats [DecidableEq α] (prev : α) (h : Stretch xs ys) :
    Collapse.dropRepeats prev xs = Collapse.dropRepeats prev ys := by
  induction h generalizing prev with
  | nil =>
      rfl
  | cons x n _ ih =>
      rw [List.replicate_succ, List.cons_append]
      by_cases hx : x = prev
      · subst hx
        simp [Collapse.dropRepeats, dropRepeats_replicate, ih]
      · simp [Collapse.dropRepeats, hx, dropRepeats_replicate, ih]

theorem destutter [DecidableEq α] (h : Stretch xs ys) :
    xs.destutter (· ≠ ·) = ys.destutter (· ≠ ·) := by
  cases h with
  | nil =>
      rfl
  | cons x n h =>
      rw [List.replicate_succ, List.cons_append, ← cons_dropRepeats, ← cons_dropRepeats,
        dropRepeats_replicate, h.dropRepeats x]

/-- Squeezing blanks and then dropping repeats forgets how often anything was repeated. -/
theorem dropRepeats_squeeze [DecidableEq α] (w : α → Bool) (s : α) (skip : Bool) (prev : α)
    (h : Stretch xs ys) :
    Collapse.dropRepeats prev (Collapse.squeeze w s skip xs) =
      Collapse.dropRepeats prev (Collapse.squeeze w s skip ys) :=
  (h.squeeze skip).dropRepeats prev

end Stretch

/-! ## Runs of equal elements -/

section RunHeads

variable [DecidableEq α]

/-- The first element of every maximal run of equal adjacent elements. -/
def runHeads (xs : List α) : List α :=
  (xs.splitBy (· == ·)).filterMap List.head?

@[simp] theorem runHeads_nil : runHeads ([] : List α) = [] := rfl

theorem splitBy_replicate (n : Nat) (x : α) :
    (List.replicate (n + 1) x).splitBy (· == ·) = [List.replicate (n + 1) x] := by
  refine List.splitBy_of_isChain (by simp) ?_
  refine List.isChain_iff_getElem.2 ?_
  intro i hi
  simp

/-- A run is over where another element comes next. -/
theorem runHeads_run {x : α} {ys : List α} (hys : ys.head? ≠ some x) (n : Nat) :
    runHeads (List.replicate (n + 1) x ++ ys) = x :: runHeads ys := by
  have hends : ∀ a ∈ (List.replicate (n + 1) x).getLast?, ∀ b ∈ ys.head?, (a == b) = false := by
    intro a ha b hb
    have hax : a = x := List.eq_of_mem_replicate (List.mem_of_mem_getLast? ha)
    have hne : x ≠ b := by
      rintro rfl
      exact hys hb
    simp [hax, hne]
  rw [runHeads, List.splitBy_append hends, splitBy_replicate]
  simp [runHeads, List.replicate_succ]

/-- Every list is empty, or a run of its first element and a rest that does not go on with it. -/
theorem eq_nil_or_run (xs : List α) :
    xs = [] ∨ ∃ x n ys, xs = List.replicate (n + 1) x ++ ys ∧ ys.head? ≠ some x := by
  induction xs with
  | nil =>
      exact Or.inl rfl
  | cons x xs ih =>
      right
      rcases ih with rfl | ⟨y, n, ys, rfl, hys⟩
      · exact ⟨x, 0, [], rfl, by simp⟩
      · by_cases hxy : x = y
        · subst hxy
          exact ⟨x, n + 1, ys, rfl, hys⟩
        · refine ⟨x, 0, List.replicate (n + 1) y ++ ys, rfl, ?_⟩
          simpa [List.replicate_succ] using Ne.symm hxy

/-- Induction along the runs of equal elements. -/
theorem equalRuns_induction {motive : List α → Prop} (nil : motive [])
    (run : ∀ x n ys, ys.head? ≠ some x → motive ys → motive (List.replicate (n + 1) x ++ ys)) :
    ∀ xs, motive xs := by
  intro xs
  induction hn : xs.length using Nat.strongRecOn generalizing xs with
  | _ m ih =>
      rcases eq_nil_or_run xs with rfl | ⟨x, n, ys, rfl, hys⟩
      · exact nil
      · refine run x n ys hys (ih ys.length ?_ ys rfl)
        simp at hn
        omega

/-- Away from the sentinel, dropping repeats keeps the heads of the runs. -/
theorem dropRepeats_eq_runHeads {prev : α} {xs : List α} (h : xs.head? ≠ some prev) :
    dropRepeats prev xs = runHeads xs := by
  induction xs using equalRuns_induction generalizing prev with
  | nil =>
      rfl
  | run x n ys hys ih =>
      have hx : x ≠ prev := by
        simpa [List.replicate_succ] using h
      rw [runHeads_run hys, List.replicate_succ, List.cons_append, dropRepeats, if_pos hx,
        Stretch.dropRepeats_replicate, ih hys]

/-- The run of the sentinel at the front is dropped as a whole. -/
theorem dropRepeats_sentinel {prev : α} {xs : List α} (h : xs.head? = some prev) :
    dropRepeats prev xs = (runHeads xs).tail := by
  induction xs using equalRuns_induction with
  | nil =>
      rfl
  | run x n ys hys _ =>
      have hx : x = prev := by
        simpa [List.replicate_succ] using h
      subst hx
      rw [runHeads_run hys, Stretch.dropRepeats_replicate, dropRepeats_eq_runHeads hys,
        List.tail_cons]

theorem head?_runHeads (xs : List α) : (runHeads xs).head? = xs.head? := by
  induction xs using equalRuns_induction with
  | nil =>
      rfl
  | run x n ys hys _ =>
      rw [runHeads_run hys, List.replicate_succ]
      rfl

theorem runHeads_eq_self {xs : List α} (h : xs.IsChain (· ≠ ·)) : runHeads xs = xs := by
  have hsingletons : xs.splitBy (· == ·) = xs.map (fun x => [x]) := by
    refine List.splitBy_eq_iff.2 ⟨?_, by simp, ?_, ?_⟩
    · rw [← List.flatMap_def, List.flatMap_singleton']
    · intro m hm
      rcases List.mem_map.1 hm with ⟨x, _, rfl⟩
      exact List.isChain_singleton x
    · refine (List.isChain_map _).2 (h.imp ?_)
      intro a b hab
      exact ⟨by simp, by simp, by simpa using hab⟩
  have hhead : List.head? ∘ (fun x : α => [x]) = some := rfl
  rw [runHeads, hsingletons, List.filterMap_map, hhead, List.filterMap_some]

end RunHeads

end Collapse
end Library
