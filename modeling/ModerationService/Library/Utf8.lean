import Mathlib.Data.List.Basic

/-!
# Utf8 — encoding and replacement decoding of byte strings

`encode` writes a text as bytes with Lean's own `String.utf8EncodeChar`.  `decode` reads any byte
string: a machine that keeps the pending bytes of one multi-byte sequence and emits U+FFFD whenever
a byte cannot continue it, so that no byte string is refused.

* `decode_encode`: decoding undoes encoding, so encoding is injective (`encode_injective`);
* `decode_append_ascii`: an ASCII byte ends whatever is pending, so texts joined by one are decoded
  independently.
-/

namespace Library
namespace Utf8

def encode (cs : List Char) : List UInt8 :=
  cs.flatMap String.utf8EncodeChar

@[simp] theorem encode_nil : encode [] = [] := rfl

@[simp] theorem encode_cons (c : Char) (cs : List Char) :
    encode (c :: cs) = String.utf8EncodeChar c ++ encode cs := by
  simp [encode]

@[simp] theorem encode_append (cs ds : List Char) :
    encode (cs ++ ds) = encode cs ++ encode ds := by
  simp [encode]

/-! ## The decoding machine -/

/-- A started sequence: how many bytes are owed, the range of the next one, the value so far. -/
structure Pending where
  needed : Nat
  low : Nat
  high : Nat
  value : Nat
  deriving DecidableEq, Repr

def replacement : Char := Char.ofNat 0xFFFD

/-- A first byte: the characters it completes, and the sequence it starts. -/
def first (b : Nat) : List Char × Option Pending :=
  if b < 0x80 then ([Char.ofNat b], none)
  else if b < 0xC2 then ([replacement], none)
  else if b < 0xE0 then ([], some ⟨1, 0x80, 0xBF, b - 0xC0⟩)
  else if b = 0xE0 then ([], some ⟨2, 0xA0, 0xBF, 0⟩)
  else if b = 0xED then ([], some ⟨2, 0x80, 0x9F, 0xD⟩)
  else if b < 0xF0 then ([], some ⟨2, 0x80, 0xBF, b - 0xE0⟩)
  else if b = 0xF0 then ([], some ⟨3, 0x90, 0xBF, 0⟩)
  else if b < 0xF4 then ([], some ⟨3, 0x80, 0xBF, b - 0xF0⟩)
  else if b = 0xF4 then ([], some ⟨3, 0x80, 0x8F, 4⟩)
  else ([replacement], none)

def step : Option Pending → Nat → List Char × Option Pending
  | none, b => first b
  | some p, b =>
      if p.low ≤ b ∧ b ≤ p.high then
        let value := p.value * 64 + (b - 0x80)
        if p.needed = 1 then ([Char.ofNat value], none)
        else ([], some ⟨p.needed - 1, 0x80, 0xBF, value⟩)
      else
        (replacement :: (first b).1, (first b).2)

/-- What a sequence cut off by the end of the input leaves behind. -/
def flush : Option Pending → List Char
  | none => []
  | some _ => [replacement]

def decodeFrom : Option Pending → List UInt8 → List Char
  | st, [] => flush st
  | st, b :: bs => (step st b.toNat).1 ++ decodeFrom (step st b.toNat).2 bs

def decode (bs : List UInt8) : List Char :=
  decodeFrom none bs

/-! ## Decoding undoes encoding -/

theorem decodeFrom_ofNat (st : Option Pending) {b : Nat} (hb : b < 256) (bs : List UInt8) :
    decodeFrom st (UInt8.ofNat b :: bs) = (step st b).1 ++ decodeFrom (step st b).2 bs := by
  have h : (UInt8.ofNat b).toNat = b :=
    UInt8.toNat_ofNat_of_lt' hb
  rw [decodeFrom, h]

/-- A byte that continues the pending sequence without completing it. -/
theorem step_continue {p : Pending} {b : Nat} (hlow : p.low ≤ b) (hhigh : b ≤ p.high)
    (hneeded : p.needed ≠ 1) :
    step (some p) b = ([], some ⟨p.needed - 1, 0x80, 0xBF, p.value * 64 + (b - 0x80)⟩) := by
  simp [step, hlow, hhigh, hneeded]

/-- A byte that completes the pending sequence. -/
theorem step_complete {p : Pending} {b : Nat} (hlow : p.low ≤ b) (hhigh : b ≤ p.high)
    (hneeded : p.needed = 1) :
    step (some p) b = ([Char.ofNat (p.value * 64 + (b - 0x80))], none) := by
  simp [step, hlow, hhigh, hneeded]

theorem first_two {v : Nat} (hlow : 0x80 ≤ v) (hhigh : v ≤ 0x7FF) :
    first (v / 64 % 0x20 + 0xC0) = ([], some ⟨1, 0x80, 0xBF, v / 64⟩) := by
  have h1 : ¬ v / 64 % 0x20 + 0xC0 < 0x80 := by omega
  have h2 : ¬ v / 64 % 0x20 + 0xC0 < 0xC2 := by omega
  have h3 : v / 64 % 0x20 + 0xC0 < 0xE0 := by omega
  have h4 : v / 64 % 0x20 + 0xC0 - 0xC0 = v / 64 := by omega
  simp only [first, h1, h2, h3, if_false, if_true, h4]

/-- The first byte of a three-byte sequence admits its second byte. -/
theorem first_three {v : Nat} (hlow : 0x800 ≤ v) (hhigh : v ≤ 0xFFFF)
    (hscalar : v < 0xD800 ∨ 0xDFFF < v) :
    ∃ low high, first (v / 4096 % 0x10 + 0xE0) = ([], some ⟨2, low, high, v / 4096⟩) ∧
      low ≤ v / 64 % 0x40 + 0x80 ∧ v / 64 % 0x40 + 0x80 ≤ high := by
  have h1 : ¬ v / 4096 % 0x10 + 0xE0 < 0x80 := by omega
  have h2 : ¬ v / 4096 % 0x10 + 0xE0 < 0xC2 := by omega
  have h3 : ¬ v / 4096 % 0x10 + 0xE0 < 0xE0 := by omega
  have h4 : v / 4096 % 0x10 + 0xE0 < 0xF0 := by omega
  -- 0xE0 and 0xED narrow the range of the second byte: no overlong forms, no surrogates
  by_cases he0 : v / 4096 % 0x10 + 0xE0 = 0xE0
  · have hv : 0 = v / 4096 := by omega
    refine ⟨0xA0, 0xBF, ?_, by omega, by omega⟩
    rw [he0, ← hv]
    rfl
  · by_cases hed : v / 4096 % 0x10 + 0xE0 = 0xED
    · have hv : 0xD = v / 4096 := by omega
      refine ⟨0x80, 0x9F, ?_, by omega, by omega⟩
      rw [hed, ← hv]
      rfl
    · have hv : v / 4096 % 0x10 + 0xE0 - 0xE0 = v / 4096 := by omega
      refine ⟨0x80, 0xBF, ?_, by omega, by omega⟩
      simp only [first, h1, h2, h3, he0, hed, h4, if_false, if_true, hv]

/-- The first byte of a four-byte sequence admits its second byte. -/
theorem first_four {v : Nat} (hlow : 0x10000 ≤ v) (hhigh : v < 0x110000) :
    ∃ low high, first (v / 262144 % 0x08 + 0xF0) = ([], some ⟨3, low, high, v / 262144⟩) ∧
      low ≤ v / 4096 % 0x40 + 0x80 ∧ v / 4096 % 0x40 + 0x80 ≤ high := by
  have h1 : ¬ v / 262144 % 0x08 + 0xF0 < 0x80 := by omega
  have h2 : ¬ v / 262144 % 0x08 + 0xF0 < 0xC2 := by omega
  have h3 : ¬ v / 262144 % 0x08 + 0xF0 < 0xE0 := by omega
  have h4 : ¬ v / 262144 % 0x08 + 0xF0 = 0xE0 := by omega
  have h5 : ¬ v / 262144 % 0x08 + 0xF0 = 0xED := by omega
  have h6 : ¬ v / 262144 % 0x08 + 0xF0 < 0xF0 := by omega
  -- 0xF0 and 0xF4 narrow the range of the second byte: no overlong forms, nothing above U+10FFFF
  by_cases hf0 : v / 262144 % 0x08 + 0xF0 = 0xF0
  · have hv : 0 = v / 262144 := by omega
    refine ⟨0x90, 0xBF, ?_, by omega, by omega⟩
    rw [hf0, ← hv]
    rfl
  · by_cases hlt : v / 262144 % 0x08 + 0xF0 < 0xF4
    · have hv : v / 262144 % 0x08 + 0xF0 - 0xF0 = v / 262144 := by omega
      refine ⟨0x80, 0xBF, ?_, by omega, by omega⟩
      simp only [first, h1, h2, h3, h4, h5, h6, hf0, hlt, if_false, if_true, hv]
    · have hf4 : v / 262144 % 0x08 + 0xF0 = 0xF4 := by omega
      have hv : 4 = v / 262144 := by omega
      refine ⟨0x80, 0x8F, ?_, by omega, by omega⟩
      rw [hf4, ← hv]
      rfl

theorem decodeFrom_encodeChar (c : Char) (bs : List UInt8) :
    decodeFrom none (String.utf8EncodeChar c ++ bs) = c :: decodeFrom none bs := by
  have hc : c.val.toNat < 0xD800 ∨ 0xDFFF < c.val.toNat ∧ c.val.toNat < 0x110000 := c.valid
  have hself : Char.ofNat c.val.toNat = c := Char.ofNat_toNat c
  unfold String.utf8EncodeChar
  generalize c.val.toNat = v at hc hself ⊢
  -- one case for each length of the encoding; the machine goes through the same number of steps
  by_cases h1 : v ≤ 0x7F
  · have hfirst : first v = ([Char.ofNat v], none) := by
      simp [first]
      omega
    simp only [h1, if_true, List.cons_append, List.nil_append]
    rw [decodeFrom_ofNat none (by omega), step, hfirst, hself]
    rfl
  · by_cases h2 : v ≤ 0x7FF
    · simp only [h1, h2, if_true, if_false, List.cons_append, List.nil_append]
      rw [decodeFrom_ofNat none (by omega), step, first_two (by omega) h2,
        decodeFrom_ofNat _ (by omega), step_complete (by simp) (by simp; omega) rfl]
      have hv : v / 64 * 64 + v % 64 = v := by
        omega
      simp [hv, hself]
    · by_cases h3 : v ≤ 0xFFFF
      · rcases first_three (v := v) (by omega) h3 (by omega) with ⟨low, high, hfirst, hlow, hhigh⟩
        simp only [h1, h2, h3, if_true, if_false, List.cons_append, List.nil_append]
        rw [decodeFrom_ofNat none (by omega), step, hfirst, decodeFrom_ofNat _ (by omega),
          step_continue hlow hhigh (by simp), decodeFrom_ofNat _ (by omega),
          step_complete (by simp) (by simp; omega) rfl]
        have hv : (v / 4096 * 64 + v / 64 % 64) * 64 + v % 64 = v := by
          omega
        simp [hv, hself]
      · rcases first_four (v := v) (by omega) (by omega) with ⟨low, high, hfirst, hlow, hhigh⟩
        simp only [h1, h2, h3, if_false, List.cons_append, List.nil_append]
        rw [decodeFrom_ofNat none (by omega), step, hfirst, decodeFrom_ofNat _ (by omega),
          step_continue hlow hhigh (by simp), decodeFrom_ofNat _ (by omega),
          step_continue (by simp) (by simp; omega) (by simp), decodeFrom_ofNat _ (by omega),
          step_complete (by simp) (by simp; omega) rfl]
        have hv : ((v / 262144 * 64 + v / 4096 % 64) * 64 + v / 64 % 64) * 64 + v % 64 = v := by
          omega
        simp [hv, hself]

theorem decode_encode (cs : List Char) : decode (encode cs) = cs := by
  unfold decode
  induction cs with
  | nil =>
      rfl
  | cons c cs ih =>
      rw [encode_cons, decodeFrom_encodeChar, ih]

theorem encode_injective {cs ds : List Char} (h : encode cs = encode ds) : cs = ds := by
  calc
    cs = decode (encode cs) := (decode_encode cs).symm
    _ = decode (encode ds) := by rw [h]
    _ = ds := decode_encode ds

/-! ## An ASCII byte ends whatever is pending -/

/-- Every pending sequence expects a continuation byte. -/
def Continues : Option Pending → Prop
  | none => True
  | some p => 0x80 ≤ p.low

theorem continues_first (b : Nat) : Continues (first b).2 := by
  unfold first
  split_ifs <;> simp [Continues]

theorem continues_step {st : Option Pending} (b : Nat) : Continues (step st b).2 := by
  cases st with
  | none =>
      exact continues_first b
  | some p =>
      simp only [step]
      split_ifs
      · trivial
      · exact Nat.le_refl _
      · exact continues_first b

theorem decodeFrom_ascii {st : Option Pending} (hst : Continues st) {b : UInt8}
    (hb : b.toNat < 0x80) (bs : List UInt8) :
    decodeFrom st (b :: bs) = flush st ++ Char.ofNat b.toNat :: decodeFrom none bs := by
  have hfirst : first b.toNat = ([Char.ofNat b.toNat], none) := by
    simp [first, hb]
  cases st with
  | none =>
      simp [decodeFrom, step, hfirst, flush]
  | some p =>
      have hlow : 0x80 ≤ p.low := hst
      -- the pending sequence expects at least 0x80, so it is given up and the byte starts afresh
      have hout : ¬ (p.low ≤ b.toNat ∧ b.toNat ≤ p.high) := by
        omega
      simp [decodeFrom, step, hout, hfirst, flush]

theorem decodeFrom_append_ascii {st : Option Pending} (hst : Continues st) {b : UInt8}
    (hb : b.toNat < 0x80) (as bs : List UInt8) :
    decodeFrom st (as ++ b :: bs) = decodeFrom st as ++ Char.ofNat b.toNat :: decodeFrom none bs := by
  induction as generalizing st with
  | nil =>
      exact decodeFrom_ascii hst hb bs
  | cons a as ih =>
      simp only [List.cons_append, decodeFrom, List.append_assoc]
      rw [ih (continues_step a.toNat)]

theorem decode_append_ascii {b : UInt8} (hb : b.toNat < 0x80) (as bs : List UInt8) :
    decode (as ++ b :: bs) = decode as ++ Char.ofNat b.toNat :: decode bs := by
  have hnone : Continues none := trivial
  exact decodeFrom_append_ascii hnone hb as bs

end Utf8
end Library
