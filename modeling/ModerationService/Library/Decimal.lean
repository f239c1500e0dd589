import Mathlib.Data.List.TakeWhile
import Mathlib.Data.Nat.Digits.Defs

/-!
# Decimal — integers as ASCII numerals

`signed` writes an integer the way C and C++ print one; `parseInt` reads the longest numeral at the
front of a byte string the way `strtoll` does: blanks, an optional sign, digits, and whatever
follows is ignored.

* `parseInt_eq_some_iff`: what is parsed is a numeral (`IsNumeral`) after blanks, up to a byte that is
  not a digit;
* `value_numeral`: reading the digits of a numeral gives the number back;
* `parseInt_signed`: parsing undoes printing, so printing is injective (`signed_injective`).
-/

namespace Library
namespace Decimal

/-! ## Numerals -/

def isDigit (b : UInt8) : Bool :=
  decide (0x30 ≤ b.toNat ∧ b.toNat ≤ 0x39)

def digit (d : Nat) : UInt8 :=
  UInt8.ofNat (0x30 + d)

def numeral (n : Nat) : List UInt8 :=
  if n = 0 then [digit 0] else ((Nat.digits 10 n).map digit).reverse

/-- `-` before the magnitude of a negative number. -/
def signed (n : Int) : List UInt8 :=
  if n < 0 then 0x2D :: numeral n.natAbs else numeral n.natAbs

/-- The number a list of digits stands for. -/
def value (bs : List UInt8) : Nat :=
  bs.foldl (fun v b => v * 10 + (b.toNat - 0x30)) 0

/-! ## Parsing a prefix -/

/-- `isspace` in the C locale. -/
def isSpace (b : UInt8) : Bool :=
  decide (b.toNat = 0x20 ∨ 0x09 ≤ b.toNat ∧ b.toNat ≤ 0x0D)

/-- The sign in front, and what comes after it. -/
def splitSign : List UInt8 → Bool × List UInt8
  | [] => (false, [])
  | b :: bs => if b = 0x2D then (true, bs) else if b = 0x2B then (false, bs) else (false, b :: bs)

/-- The integer at the front of a byte string, or `none` when there is no digit. -/
def parseInt (bs : List UInt8) : Option Int :=
  let (negative, rest) := splitSign (bs.dropWhile isSpace)
  let digits := rest.takeWhile isDigit
  if digits.isEmpty then none
  else if negative then some (-(value digits : Int))
  else some (value digits)

/-! ## What is parsed -/

/-- An optional sign and one or more digits, with the number they stand for. -/
inductive IsNumeral : List UInt8 → Int → Prop where
  | unsigned {ds : List UInt8} (hne : ds ≠ []) (h : ∀ b ∈ ds, isDigit b = true) :
      IsNumeral ds (value ds)
  | plus {ds : List UInt8} (hne : ds ≠ []) (h : ∀ b ∈ ds, isDigit b = true) :
      IsNumeral (0x2B :: ds) (value ds)
  | minus {ds : List UInt8} (hne : ds ≠ []) (h : ∀ b ∈ ds, isDigit b = true) :
      IsNumeral (0x2D :: ds) (-(value ds))

/-- The digits do not go on in `rest`. -/
def Stops (rest : List UInt8) : Prop :=
  ∀ b ∈ rest.head?, isDigit b = false

theorem stops_nil : Stops [] := by
  simp [Stops]

theorem stops_dropWhile (bs : List UInt8) : Stops (bs.dropWhile isDigit) := by
  intro b hb
  cases hrest : bs.dropWhile isDigit with
  | nil =>
      simp [hrest] at hb
  | cons c rest =>
      have hc := List.head_dropWhile_not isDigit (show bs.dropWhile isDigit ≠ [] by simp [hrest])
      have hsame : c = b := by
        simpa [hrest] using hb
      simpa [hrest, hsame] using hc

theorem takeWhile_digits {ds rest : List UInt8} (hds : ∀ b ∈ ds, isDigit b = true)
    (hrest : Stops rest) : (ds ++ rest).takeWhile isDigit = ds := by
  have hstop : rest.takeWhile isDigit = [] := by
    cases rest with
    | nil =>
        rfl
    | cons b rest =>
        have hb : isDigit b = false := hrest b rfl
        simp [hb]
  simp [List.takeWhile_append_of_pos hds, hstop]

/-- A digit in front, whatever follows it, is neither blank nor sign. -/
theorem splitSign_digit_cons {b : UInt8} (hb : isDigit b = true) (bs : List UInt8) :
    splitSign (b :: bs) = (false, b :: bs) := by
  have hminus : b ≠ 0x2D := by
    rintro rfl
    exact absurd hb (by decide)
  have hplus : b ≠ 0x2B := by
    rintro rfl
    exact absurd hb (by decide)
  simp [splitSign, hminus, hplus]

/-- The bytes of a numeral after the first are digits. -/
theorem IsNumeral.digit_of_mem_tail {bs : List UInt8} {n : Int} (h : IsNumeral bs n) :
    ∀ b ∈ bs.tail, isDigit b = true := by
  cases h with
  | unsigned hne hds =>
      intro b hb
      exact hds b (List.mem_of_mem_tail hb)
  | plus hne hds =>
      exact hds
  | minus hne hds =>
      exact hds

theorem IsNumeral.ne_nil {bs : List UInt8} {n : Int} (h : IsNumeral bs n) : bs ≠ [] := by
  cases h with
  | unsigned hne hds =>
      exact hne
  | plus hne hds =>
      simp
  | minus hne hds =>
      simp

theorem dropWhile_blanks {blanks bs : List UInt8} {b : UInt8}
    (hblanks : ∀ c ∈ blanks, isSpace c = true) (hb : isDigit b = true ∨ b = 0x2B ∨ b = 0x2D) :
    (blanks ++ b :: bs).dropWhile isSpace = b :: bs := by
  have hnot : ¬ isSpace b = true := by
    rcases hb with hb | rfl | rfl
    · intro hspace
      have hdigit := of_decide_eq_true hb
      have hblank := of_decide_eq_true hspace
      omega
    · decide
    · decide
  rw [List.dropWhile_append_of_pos hblanks, List.dropWhile_cons_of_neg hnot]

theorem parseInt_of_isNumeral {blanks ds rest : List UInt8} {n : Int}
    (hblanks : ∀ b ∈ blanks, isSpace b = true) (h : IsNumeral ds n) (hrest : Stops rest) :
    parseInt (blanks ++ (ds ++ rest)) = some n := by
  cases h with
  | unsigned hne hds =>
      rcases List.exists_cons_of_ne_nil hne with ⟨b, bs, rfl⟩
      have hb : isDigit b = true := hds b (by simp)
      have htake := takeWhile_digits hds hrest
      rw [List.cons_append] at htake ⊢
      simp [parseInt, dropWhile_blanks hblanks (Or.inl hb), splitSign_digit_cons hb, htake]
  | @plus ds hne hds =>
      have hsplit : splitSign (0x2B :: (ds ++ rest)) = (false, ds ++ rest) := rfl
      rw [List.cons_append]
      simp [parseInt, dropWhile_blanks hblanks (Or.inr (Or.inl rfl)), hsplit,
        takeWhile_digits hds hrest, hne]
  | @minus ds hne hds =>
      have hsplit : splitSign (0x2D :: (ds ++ rest)) = (true, ds ++ rest) := rfl
      rw [List.cons_append]
      simp [parseInt, dropWhile_blanks hblanks (Or.inr (Or.inr rfl)), hsplit,
        takeWhile_digits hds hrest, hne]

/-- A sign, or none, and the digits after it are a numeral. -/
theorem isNumeral_of_splitSign {body rest : List UInt8} {negative : Bool}
    (hsplit : splitSign body = (negative, rest)) (hne : rest.takeWhile isDigit ≠ []) :
    ∃ ds, body = ds ++ rest.dropWhile isDigit ∧
      IsNumeral ds (if negative then -(value (rest.takeWhile isDigit) : Int)
        else value (rest.takeWhile isDigit)) := by
  have hdigits : ∀ b ∈ rest.takeWhile isDigit, isDigit b = true :=
    fun b hb => List.mem_takeWhile_imp hb
  have hrest : rest.takeWhile isDigit ++ rest.dropWhile isDigit = rest :=
    List.takeWhile_append_dropWhile
  cases body with
  | nil =>
      have hnil : rest = [] := by
        simpa [splitSign] using (Prod.ext_iff.1 hsplit).2.symm
      simp [hnil] at hne
  | cons b bs =>
      by_cases hminus : b = 0x2D
      · subst hminus
        have hparts : true = negative ∧ bs = rest := by
          simpa [splitSign] using hsplit
        rcases hparts with ⟨rfl, rfl⟩
        exact ⟨0x2D :: bs.takeWhile isDigit, by simp [hrest], .minus hne hdigits⟩
      · by_cases hplus : b = 0x2B
        · subst hplus
          have hparts : false = negative ∧ bs = rest := by
            simpa [splitSign] using hsplit
          rcases hparts with ⟨rfl, rfl⟩
          exact ⟨0x2B :: bs.takeWhile isDigit, by simp [hrest], .plus hne hdigits⟩
        · have hparts : false = negative ∧ b :: bs = rest := by
            simpa [splitSign, hminus, hplus] using hsplit
          rcases hparts with ⟨rfl, rfl⟩
          exact ⟨(b :: bs).takeWhile isDigit, hrest.symm, .unsigned hne hdigits⟩

theorem parseInt_eq_some_iff {bs : List UInt8} {n : Int} :
    parseInt bs = some n ↔ ∃ blanks ds rest, bs = blanks ++ (ds ++ rest) ∧
      (∀ b ∈ blanks, isSpace b = true) ∧ IsNumeral ds n ∧ Stops rest := by
  constructor
  · intro h
    cases hsplit : splitSign (bs.dropWhile isSpace) with
    | mk negative rest =>
        simp only [parseInt, hsplit] at h
        by_cases hne : rest.takeWhile isDigit = []
        · simp [hne] at h
        · rcases isNumeral_of_splitSign hsplit hne with ⟨ds, hbody, hnumeral⟩
          have hn : (if negative then -(value (rest.takeWhile isDigit) : Int)
              else value (rest.takeWhile isDigit)) = n := by
            cases negative <;> simpa [hne] using h
          refine ⟨bs.takeWhile isSpace, ds, rest.dropWhile isDigit, ?_, ?_, hn ▸ hnumeral,
            stops_dropWhile rest⟩
          · rw [← hbody, List.takeWhile_append_dropWhile]
          · exact fun b hb => List.mem_takeWhile_imp hb
  · rintro ⟨blanks, ds, rest, rfl, hblanks, hnumeral, hrest⟩
    exact parseInt_of_isNumeral hblanks hnumeral hrest

/-! ## Parsing undoes printing -/

theorem toNat_digit {d : Nat} (h : d < 10) : (digit d).toNat = 0x30 + d :=
  UInt8.toNat_ofNat_of_lt' (by rw [UInt8.size]; omega)

theorem isDigit_digit {d : Nat} (h : d < 10) : isDigit (digit d) = true := by
  rw [isDigit, toNat_digit h, decide_eq_true_iff]
  omega

theorem isDigit_numeral (n : Nat) : ∀ b ∈ numeral n, isDigit b = true := by
  intro b hb
  unfold numeral at hb
  split_ifs at hb
  · rw [List.mem_singleton.1 hb]
    exact isDigit_digit (by decide)
  · rcases List.mem_map.1 (List.mem_reverse.1 hb) with ⟨d, hd, rfl⟩
    exact isDigit_digit (Nat.digits_lt_base (by decide) hd)

theorem numeral_ne_nil (n : Nat) : numeral n ≠ [] := by
  unfold numeral
  split_ifs with hn
  · simp
  · intro h
    have hdigits : Nat.digits 10 n = [] := by
      simpa using h
    exact Nat.digits_ne_nil_iff_ne_zero.2 hn hdigits

theorem value_numeral (n : Nat) : value (numeral n) = n := by
  -- `digits` is least significant first, so reading the reversed list is `ofDigits`
  have hdigits : ∀ ds : List Nat, (∀ d ∈ ds, d < 10) →
      value ((ds.map digit).reverse) = Nat.ofDigits 10 ds := by
    intro ds hds
    induction ds with
    | nil =>
        rfl
    | cons d ds ih =>
        have hd := hds d (by simp)
        have hrest : ∀ e ∈ ds, e < 10 := fun e he => hds e (List.mem_cons_of_mem d he)
        have hih := ih hrest
        unfold value at hih ⊢
        rw [List.map_cons, List.reverse_cons, List.foldl_append, hih, List.foldl_cons,
          List.foldl_nil, toNat_digit hd, Nat.ofDigits_cons]
        omega
  unfold numeral
  split_ifs with hn
  · rw [hn]
    rfl
  · rw [hdigits _ (fun d hd => Nat.digits_lt_base (by decide) hd), Nat.ofDigits_digits]

theorem isNumeral_signed (n : Int) : IsNumeral (signed n) n := by
  have hne := numeral_ne_nil n.natAbs
  have hdigits := isDigit_numeral n.natAbs
  by_cases hneg : n < 0
  · have habs : -(value (numeral n.natAbs) : Int) = n := by
      rw [value_numeral, Int.ofNat_natAbs_of_nonpos (Int.le_of_lt hneg), Int.neg_neg]
    have hminus := IsNumeral.minus hne hdigits
    simpa [signed, hneg, habs] using hminus
  · have habs : (value (numeral n.natAbs) : Int) = n := by
      rw [value_numeral, Int.natAbs_of_nonneg (Int.not_lt.1 hneg)]
    have hunsigned := IsNumeral.unsigned hne hdigits
    simpa [signed, hneg, habs] using hunsigned

theorem parseInt_signed (n : Int) : parseInt (signed n) = some n := by
  have hparse : parseInt ([] ++ (signed n ++ [])) = some n :=
    parseInt_of_isNumeral (by simp) (isNumeral_signed n) stops_nil
  simpa using hparse

theorem signed_injective {m n : Int} (h : signed m = signed n) : m = n := by
  have hm := parseInt_signed m
  rw [h, parseInt_signed n] at hm
  exact (Option.some.inj hm).symm

end Decimal
end Library
