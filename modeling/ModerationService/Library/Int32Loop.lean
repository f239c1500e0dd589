import ModerationService.Library.Utf16

/-!
# Int32Loop — index loops over a text in 32-bit arithmetic

The loops of `ForLoop` with the index in an `Int32`, every operation on it checked.  An operation
that C++ leaves undefined has no result, and then neither has the loop:

* `succ` has none when it overflows;
* `advance`, the increment of an index, has none when it leaves the text;
* `charAt` and `char32At` have none outside the text.

`run_eq_some` is the refinement rule of `ForLoop.run_eq_foldl` for such a loop: if its body has a
result at the start of every block, so has the loop.  `run_eq_run` compares it with the loop without
checks, for a state that grows with the text.
-/

namespace Library
namespace Int32Loop

open ForLoop

variable {σ α : Type}

/-! ## Checked operations -/

/-- `n++`. -/
def succ (n : Int32) : Option Int32 :=
  if n = Int32.maxValue then none else some (n + 1)

/-- `i++` on the index of a loop over `len` positions, which stays within them. -/
def advance (len i : Int32) : Option Int32 :=
  if i < len then succ i else none

/-- The code unit at `i`, which has to lie in the text. -/
def charAt (us : List UInt16) (i : Int32) : Option UInt16 :=
  if 0 ≤ i.toInt ∧ i.toInt < us.length then some (Utf16.charAt us i.toNatClampNeg) else none

/-- The code point at `i`, which has to lie in the text. -/
def char32At (us : List UInt16) (i : Int32) : Option Nat :=
  if 0 ≤ i.toInt ∧ i.toInt < us.length then some (Utf16.char32At us i.toNatClampNeg) else none

section Below

variable {m n : Nat}

theorem ofNat_lt_ofNat (hm : m < 2 ^ 31) (hn : n < 2 ^ 31) :
    Int32.ofNat m < Int32.ofNat n ↔ m < n := by
  rw [Int32.lt_iff_toInt_lt, Int32.toInt_ofNat_of_lt hm, Int32.toInt_ofNat_of_lt hn]
  exact Int.ofNat_lt

theorem succ_ofNat (h : n + 1 < 2 ^ 31) : succ (Int32.ofNat n) = some (Int32.ofNat (n + 1)) := by
  have hne : Int32.ofNat n ≠ Int32.maxValue := by
    intro hmax
    have hvalue := congrArg Int32.toInt hmax
    rw [Int32.toInt_ofNat_of_lt (by omega)] at hvalue
    have hlast : (n : Int) = 2 ^ 31 - 1 := hvalue
    omega
  rw [succ, if_neg hne, Int32.ofNat_add]
  rfl

theorem advance_ofNat (h : m < n) (hn : n < 2 ^ 31) :
    advance (Int32.ofNat n) (Int32.ofNat m) = some (Int32.ofNat (m + 1)) := by
  rw [advance, if_pos ((ofNat_lt_ofNat (by omega) hn).2 h), succ_ofNat (by omega)]

theorem inside_ofNat (h : m < n) (hn : n < 2 ^ 31) :
    0 ≤ (Int32.ofNat m).toInt ∧ (Int32.ofNat m).toInt < n := by
  rw [Int32.toInt_ofNat_of_lt (by omega)]
  omega

theorem charAt_ofNat {us : List UInt16} (h : n < us.length) (hlen : us.length < 2 ^ 31) :
    charAt us (Int32.ofNat n) = some (Utf16.charAt us n) := by
  rw [charAt, if_pos (inside_ofNat h hlen), Int32.toNatClampNeg_ofNat_of_lt (by omega)]

theorem char32At_ofNat {us : List UInt16} (h : n < us.length) (hlen : us.length < 2 ^ 31) :
    char32At us (Int32.ofNat n) = some (Utf16.char32At us n) := by
  rw [char32At, if_pos (inside_ofNat h hlen), Int32.toNatClampNeg_ofNat_of_lt (by omega)]

end Below

/-! ## Loops -/

/-- The loop from index `i`, for at most `fuel` iterations; without a result when they do not
suffice. -/
def runFrom (len : Int32) (body : Int32 → σ → Option (Int32 × σ)) : Nat → Int32 → σ → Option σ
  | 0, i, s => if i < len then none else some s
  | fuel + 1, i, s =>
      if i < len then do
        let (i', s') ← body i s
        let next ← advance len i'
        runFrom len body fuel next s'
      else
        some s

/-- `for (int32_t i = 0; i < len; i++) { body }`. -/
def run (len : Int32) (body : Int32 → σ → Option (Int32 × σ)) (s : σ) : Option σ :=
  runFrom len body len.toNatClampNeg 0 s

/-- At the start of every block of `xs` the body has a result when `step` has one: it does `step`
and leaves the index on the last position of the block. -/
def Follows (size : α → Nat) (xs : List α) (body : Int32 → σ → Option (Int32 × σ))
    (step : σ → α → Option σ) : Prop :=
  ∀ pre x post s s', xs = pre ++ x :: post → step s x = some s' →
    body (Int32.ofNat (extent size pre)) s =
      some (Int32.ofNat (extent size pre + (size x - 1)), s')

section Blocks

variable {size : α → Nat} {xs : List α} {body : Int32 → σ → Option (Int32 × σ)}
  {step : σ → α → Option σ} (hsize : ∀ x, 0 < size x) (hlen : extent size xs < 2 ^ 31)
  (h : Follows size xs body step)

include hsize hlen h

theorem runFrom_eq_some :
    ∀ (post pre : List α) (fuel : Nat) (s r : σ), xs = pre ++ post → extent size post ≤ fuel →
      post.foldlM step s = some r →
        runFrom (Int32.ofNat (extent size xs)) body fuel (Int32.ofNat (extent size pre)) s =
          some r := by
  intro post
  induction post with
  | nil =>
      intro pre fuel s r hxs _ hr
      have hsame : s = r := by
        simpa using hr
      have hend : ¬ Int32.ofNat (extent size pre) < Int32.ofNat (extent size xs) := by
        have hpre : extent size xs = extent size pre := by
          simp [hxs]
        rw [ofNat_lt_ofNat (hpre ▸ hlen) hlen]
        omega
      cases fuel <;> simp [runFrom, hend, hsame]
  | cons x post ih =>
      intro pre fuel s r hxs hfuel hr
      have hx := hsize x
      have htotal : extent size xs = extent size pre + (size x + extent size post) := by
        simp [hxs]
      rcases Option.bind_eq_some_iff.1 hr with ⟨s', hstep, hrest⟩
      have hlt : Int32.ofNat (extent size pre) < Int32.ofNat (extent size xs) :=
        (ofNat_lt_ofNat (by omega) hlen).2 (by omega)
      -- the body ends inside the text, so the increment after it does not leave it
      have hnext : advance (Int32.ofNat (extent size xs))
          (Int32.ofNat (extent size pre + (size x - 1))) =
            some (Int32.ofNat (extent size (pre ++ [x]))) := by
        have hlast : extent size (pre ++ [x]) = extent size pre + (size x - 1) + 1 := by
          simp
          omega
        rw [advance_ofNat (by omega) hlen, hlast]
      cases fuel with
      | zero =>
          simp at hfuel
          omega
      | succ fuel =>
          have hrestFuel : extent size post ≤ fuel := by
            simp at hfuel
            omega
          have hloop := ih (pre ++ [x]) fuel s' r (by simp [hxs]) hrestFuel hrest
          simp only [runFrom, hlt, if_true, h pre x post s s' hxs hstep, hnext, Option.bind_eq_bind,
            Option.bind_some, hloop]

/-- A checked loop that walks the blocks of `xs` has the result of the fold over them. -/
theorem run_eq_some {s r : σ} (hr : xs.foldlM step s = some r) :
    run (Int32.ofNat (extent size xs)) body s = some r := by
  have hfuel : extent size xs ≤ (Int32.ofNat (extent size xs)).toNatClampNeg :=
    Nat.le_of_eq (Int32.toNatClampNeg_ofNat_of_lt hlen).symm
  exact runFrom_eq_some hsize hlen h xs [] _ s r rfl hfuel hr

end Blocks

/-! ## States that grow with the text -/

section Grows

variable {τ : Type} {size : α → Nat} {measure : τ → Nat} {step : τ → α → τ} (repr : τ → σ)
  {checked : σ → α → Option σ} (hgrows : Grows measure size step)
  (hchecked : ∀ t x, measure t + size x < 2 ^ 31 →
    checked (repr t) x = some (repr (step t x)))

include hgrows hchecked

theorem foldlM_eq_some (xs : List α) (t : τ) (h : measure t + extent size xs < 2 ^ 31) :
    xs.foldlM checked (repr t) = some (repr (xs.foldl step t)) := by
  induction xs generalizing t with
  | nil =>
      rfl
  | cons x xs ih =>
      rw [extent_cons] at h
      have hx := hgrows t x
      have hfirst : checked (repr t) x = some (repr (step t x)) := hchecked t x (by omega)
      rw [List.foldlM_cons, hfirst, List.foldl_cons]
      exact ih (step t x) (by omega)

/-- While the state grows by at most the size of each block, a checked step that succeeds as long as
the state is in range succeeds in every iteration: the loop is the one without checks. -/
theorem run_eq_run (hsize : ∀ x, 0 < size x) {xs : List α} {body : Nat → τ → Nat × τ}
    {checkedBody : Int32 → σ → Option (Int32 × σ)} (h : ForLoop.Follows size xs body step)
    (h' : Follows size xs checkedBody checked) {t : τ}
    (hlen : measure t + extent size xs < 2 ^ 31) :
    run (Int32.ofNat (extent size xs)) checkedBody (repr t) =
      some (repr (ForLoop.run (extent size xs) body t)) := by
  rw [run_eq_foldl hsize h]
  exact run_eq_some hsize (by omega) h' (foldlM_eq_some repr hgrows hchecked xs t hlen)

end Grows

theorem run_encode {τ : Type} {measure : τ → Nat} {step : τ → Char → τ} (repr : τ → σ)
    {checked : σ → Char → Option σ} {cs : List Char} {body : Nat → τ → Nat × τ}
    {checkedBody : Int32 → σ → Option (Int32 × σ)}
    (hgrows : Grows measure Utf16.width step)
    (hchecked : ∀ t c, measure t + Utf16.width c < 2 ^ 31 →
      checked (repr t) c = some (repr (step t c)))
    (h : ForLoop.Follows Utf16.width cs body step)
    (h' : Follows Utf16.width cs checkedBody checked) {t : τ}
    (hlen : measure t + (Utf16.encode cs).length < 2 ^ 31) :
    run (Int32.ofNat (Utf16.encode cs).length) checkedBody (repr t) =
      some (repr (ForLoop.run (Utf16.encode cs).length body t)) := by
  rw [Utf16.length_encode] at *
  exact run_eq_run repr hgrows hchecked Utf16.width_pos h h' hlen

end Int32Loop
end Library
