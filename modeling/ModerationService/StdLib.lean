import ModerationService.Library.Decimal

/-!
# StdLib — the C++ standard library as the service uses it

Strings of bytes, `std::to_string`, `std::stoll`, `std::stoi`, `std::isdigit` and the exceptions
derived from `std::exception`, which the service only ever asks for their `what()`.
-/

namespace ModerationService

open Library

/-- `std::string`, a string of bytes. -/
abbrev StdString := List UInt8

instance : LawfulBEq StdString :=
  inferInstanceAs (LawfulBEq (List UInt8))

/-- An exception derived from `std::exception`. -/
structure StdException where
  what : String
  deriving DecidableEq, Repr

namespace StdLib

/-- `std::to_string(long long)`. -/
def toString (n : Int64) : StdString :=
  Decimal.signed n.toInt

/-- `std::isdigit` on a byte; false outside ASCII. -/
def isdigit (b : UInt8) : Bool :=
  Decimal.isDigit b

/-- `std::stoll`: it throws `invalid_argument` when there is no number at the front of the string,
and `out_of_range` when the number is not a `long long`. -/
def stoll (s : StdString) : Except StdException Int64 :=
  match Decimal.parseInt s with
  | none => .error ⟨"stoll"⟩
  | some n =>
      if -2 ^ 63 ≤ n ∧ n < 2 ^ 63 then
        .ok (Int64.ofInt n)
      else
        .error ⟨"stoll"⟩

/-- `std::stoi`, which throws like `stoll` when the number is not an `int`. -/
def stoi (s : StdString) : Except StdException Int32 :=
  match Decimal.parseInt s with
  | none => .error ⟨"stoi"⟩
  | some n =>
      if -2 ^ 31 ≤ n ∧ n < 2 ^ 31 then
        .ok (Int32.ofInt n)
      else
        .error ⟨"stoi"⟩

/-- `std::to_string(int)`. -/
def toString32 (n : Int32) : StdString :=
  Decimal.signed n.toInt

theorem toString_injective {m n : Int64} (h : toString m = toString n) : m = n :=
  Int64.toInt_inj.1 (Decimal.signed_injective h)

/-- Parsing undoes printing on the whole range of `long long`. -/
theorem stoll_toString (n : Int64) : stoll (toString n) = .ok n := by
  have hlow : -2 ^ 63 ≤ n.toInt := n.le_toInt
  have hhigh : n.toInt < 2 ^ 63 := n.toInt_lt
  rw [stoll, toString, Decimal.parseInt_signed]
  simp only [hlow, hhigh, and_self, if_true, Int64.ofInt_toInt]

theorem stoi_toString32 (n : Int32) : stoi (toString32 n) = .ok n := by
  have hlow : -2 ^ 31 ≤ n.toInt := n.le_toInt
  have hhigh : n.toInt < 2 ^ 31 := n.toInt_lt
  rw [stoi, toString32, Decimal.parseInt_signed]
  simp only [hlow, hhigh, and_self, if_true, Int32.ofInt_toInt]

end StdLib

end ModerationService
