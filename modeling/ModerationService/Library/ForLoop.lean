import Mathlib.Algebra.GroupWithZero.Nat
import Mathlib.Data.List.Basic

/-!
# ForLoop — index loops whose body may move the index

A C loop `for (i = 0; i < len; i++) { body }` in which the body itself may step `i` forward.  The
body is a function from the index and the accumulator to the index it leaves behind and the new
accumulator; `i++` is added by the loop.

* `run len body s` executes the loop from index `0`;
* `run_eq_foldl` is the refinement rule: if the indices the loop stops at are the starts of
  consecutive blocks of a list, the loop is a left fold over the blocks;
* `logged` records one observation per iteration, so that "which indices are visited" is a
  statement about an ordinary run.
-/

namespace Library
namespace ForLoop

variable {σ α γ : Type}

/-- The loop from index `i`, for at most `fuel` iterations. -/
def runFrom (len : Nat) (body : Nat → σ → Nat × σ) : Nat → Nat → σ → σ
  | 0, _, s => s
  | fuel + 1, i, s =>
      if i < len then
        let r := body i s
        runFrom len body fuel (r.1 + 1) r.2
      else
        s

/-- `for (i = 0; i < len; i++) { body }`.  Every iteration moves the index, so `len` iterations
are enough. -/
def run (len : Nat) (body : Nat → σ → Nat × σ) (s : σ) : σ :=
  runFrom len body len 0 s

/-! ## The refinement rule -/

section Blocks

variable {size : α → Nat}

/-- Total size of a list of blocks. -/
def extent (size : α → Nat) (xs : List α) : Nat :=
  (xs.map size).sum

@[simp] theorem extent_nil : extent size [] = 0 := rfl

@[simp] theorem extent_cons (x : α) (xs : List α) :
    extent size (x :: xs) = size x + extent size xs := by
  simp [extent]

@[simp] theorem extent_append (xs ys : List α) :
    extent size (xs ++ ys) = extent size xs + extent size ys := by
  simp [extent]

/-- At the start of every block of `xs` the body does `step` and leaves the index on the last
position of the block. -/
def Follows (size : α → Nat) (xs : List α) (body : Nat → σ → Nat × σ) (step : σ → α → σ) :
    Prop :=
  ∀ pre x post s, xs = pre ++ x :: post →
    body (extent size pre) s = (extent size pre + (size x - 1), step s x)

theorem runFrom_eq_foldl {xs : List α} {body : Nat → σ → Nat × σ} {step : σ → α → σ}
    (hsize : ∀ x, 0 < size x) (h : Follows size xs body step) :
    ∀ (post pre : List α) (fuel : Nat) (s : σ), xs = pre ++ post → extent size post ≤ fuel →
      runFrom (extent size xs) body fuel (extent size pre) s = post.foldl step s := by
  intro post
  induction post with
  | nil =>
      intro pre fuel s hxs _
      cases fuel with
      | zero =>
          rfl
      | succ fuel =>
          simp [runFrom, hxs]
  | cons x post ih =>
      -- the iteration at the start of `x` moves the index to the start of the block after it
      intro pre fuel s hxs hfuel
      have hx := hsize x
      cases fuel with
      | zero =>
          simp at hfuel
          omega
      | succ fuel =>
          have hlt : extent size pre < extent size xs := by
            simp [hxs]
            omega
          have hnext : extent size pre + (size x - 1) + 1 = extent size (pre ++ [x]) := by
            simp
            omega
          have hrest : extent size post ≤ fuel := by
            simp at hfuel
            omega
          simp only [runFrom, hlt, if_true, h pre x post s hxs, hnext, List.foldl_cons]
          exact ih (pre ++ [x]) fuel (step s x) (by simp [hxs]) hrest

/-- A loop that walks the blocks of `xs` is a left fold over `xs`. -/
theorem run_eq_foldl {xs : List α} {body : Nat → σ → Nat × σ} {step : σ → α → σ}
    (hsize : ∀ x, 0 < size x) (h : Follows size xs body step) (s : σ) :
    run (extent size xs) body s = xs.foldl step s :=
  runFrom_eq_foldl hsize h xs [] _ s rfl (Nat.le_refl _)

/-! ## States that grow with the text -/

/-- A step adds at most the size of its block to the measure of the state. -/
def Grows (measure : σ → Nat) (size : α → Nat) (step : σ → α → σ) : Prop :=
  ∀ s x, measure (step s x) ≤ measure s + size x

theorem Grows.foldl_le {measure : σ → Nat} {step : σ → α → σ} (h : Grows measure size step)
    (xs : List α) (s : σ) : measure (xs.foldl step s) ≤ measure s + extent size xs := by
  induction xs generalizing s with
  | nil =>
      exact Nat.le_refl _
  | cons x xs ih =>
      have hstep := h s x
      have hrest := ih (step s x)
      rw [List.foldl_cons, extent_cons]
      omega

end Blocks

/-! ## Observing the iterations -/

/-- The same loop body, which also records what `look` sees at the index of each iteration. -/
def logged (look : Nat → γ) (body : Nat → σ → Nat × σ) : Nat → σ × List γ → Nat × (σ × List γ) :=
  fun i s =>
    let r := body i s.1
    (r.1, (r.2, s.2 ++ [look i]))

/-- What `look` sees along the run, in order. -/
def visits (len : Nat) (look : Nat → γ) (body : Nat → σ → Nat × σ) (s : σ) : List γ :=
  (run len (logged look body) (s, [])).2

theorem foldl_logged (step : σ → α → σ) (see : α → γ) (xs : List α) (s : σ) (log : List γ) :
    xs.foldl (fun (p : σ × List γ) x => (step p.1 x, p.2 ++ [see x])) (s, log) =
      (xs.foldl step s, log ++ xs.map see) := by
  induction xs generalizing s log with
  | nil =>
      simp
  | cons x xs ih =>
      simp [ih]

/-- A loop that walks the blocks of `xs` looks at each of them once and in order. -/
theorem visits_eq_map {size : α → Nat} {xs : List α} {body : Nat → σ → Nat × σ}
    {step : σ → α → σ} {look : Nat → γ} {see : α → γ} (hsize : ∀ x, 0 < size x)
    (h : Follows size xs body step)
    (hlook : ∀ pre x post, xs = pre ++ x :: post → look (extent size pre) = see x) (s : σ) :
    visits (extent size xs) look body s = xs.map see := by
  have hlogged : Follows size xs (logged look body)
      (fun (p : σ × List γ) x => (step p.1 x, p.2 ++ [see x])) := by
    intro pre x post p hxs
    simp [logged, h pre x post p.1 hxs, hlook pre x post hxs]
  -- the recording loop walks the same blocks, so the rule applies to it as well
  rw [visits, run_eq_foldl hsize hlogged, foldl_logged]
  simp

end ForLoop
end Library
