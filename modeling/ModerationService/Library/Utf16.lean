import Mathlib.Data.List.Basic
import ModerationService.Library.ForLoop

/-!
# Utf16 — texts as 16-bit code units

UTF-16 over `UInt16` code units, with Lean's `Char` (a Unicode scalar value) as the code point of a
well-formed text:

* `encode` and `decode`, with `decode_encode` and, on well-formed texts, `encode_decode`;
* `charAt` and `char32At`, random access by code unit;
* `char32At_encode`: at the unit offset of a code point, random access reads exactly that code
  point.

`run_encode` and `visited_encode` specialise the index-loop rule of `ForLoop` to encoded texts.
-/

namespace Library
namespace Utf16

/-! ## Code units -/

def isLead (u : UInt16) : Bool :=
  decide (0xD800 ≤ u.toNat ∧ u.toNat ≤ 0xDBFF)

def isTrail (u : UInt16) : Bool :=
  decide (0xDC00 ≤ u.toNat ∧ u.toNat ≤ 0xDFFF)

/-- The code point of a surrogate pair. -/
def supplementary (lead trail : UInt16) : Nat :=
  0x10000 + (lead.toNat - 0xD800) * 0x400 + (trail.toNat - 0xDC00)

/-- The code units of a code point; nothing beyond U+10FFFF. -/
def unitsOf (c : Nat) : List UInt16 :=
  if c < 0x10000 then
    [UInt16.ofNat c]
  else if c ≤ 0x10FFFF then
    [UInt16.ofNat (0xD800 + (c - 0x10000) / 0x400), UInt16.ofNat (0xDC00 + (c - 0x10000) % 0x400)]
  else
    []

def encodeChar (c : Char) : List UInt16 :=
  unitsOf c.toNat

def encode (cs : List Char) : List UInt16 :=
  cs.flatMap encodeChar

/-- Number of code units of a code point. -/
def width (c : Char) : Nat :=
  (encodeChar c).length

/-- A single code unit read as a code point; a lone surrogate becomes U+FFFD. -/
def decodeUnit (u : UInt16) : Char :=
  if isLead u || isTrail u then Char.ofNat 0xFFFD else Char.ofNat u.toNat

def decode : List UInt16 → List Char
  | [] => []
  | [u] => [decodeUnit u]
  | u :: v :: us =>
      if isLead u && isTrail v then
        Char.ofNat (supplementary u v) :: decode us
      else
        decodeUnit u :: decode (v :: us)

/-- Every lead surrogate is followed by a trail surrogate, and every trail follows a lead. -/
def wellFormed : List UInt16 → Bool
  | [] => true
  | [u] => !isLead u && !isTrail u
  | u :: v :: us =>
      if isLead u then isTrail v && wellFormed us else !isTrail u && wellFormed (v :: us)

/-! ## Random access -/

/-- The code unit at offset `i`, or U+FFFF outside the text. -/
def charAt (us : List UInt16) (i : Nat) : UInt16 :=
  us.getD i 0xFFFF

/-- The code point at offset `i`: the whole pair when the unit is either half of one. -/
def char32At (us : List UInt16) (i : Nat) : Nat :=
  let u := charAt us i
  if isLead u && decide (i + 1 < us.length) && isTrail (charAt us (i + 1)) then
    supplementary u (charAt us (i + 1))
  else if isTrail u && decide (0 < i) && isLead (charAt us (i - 1)) then
    supplementary (charAt us (i - 1)) u
  else
    u.toNat

/-! ## The two shapes of a code point -/

theorem char_scalar (c : Char) : c.toNat < 0xD800 ∨ 0xDFFF < c.toNat ∧ c.toNat < 0x110000 :=
  c.valid

theorem supplementary_eq {u v : UInt16} {n : Nat} (hu : u.toNat = 0xD800 + n / 0x400)
    (hv : v.toNat = 0xDC00 + n % 0x400) : supplementary u v = 0x10000 + n := by
  unfold supplementary
  omega

/-- A code point is one unit that is no surrogate, or a lead followed by a trail. -/
theorem encodeChar_cases (c : Char) :
    (∃ u, encodeChar c = [u] ∧ isLead u = false ∧ isTrail u = false ∧ u.toNat = c.toNat) ∨
      (∃ u v, encodeChar c = [u, v] ∧ isLead u = true ∧ isTrail u = false ∧ isTrail v = true ∧
        isLead v = false ∧ supplementary u v = c.toNat) := by
  have hc := char_scalar c
  -- the two cases of `unitsOf`; a scalar value is never a surrogate itself
  by_cases hbmp : c.toNat < 0x10000
  · left
    refine ⟨UInt16.ofNat c.toNat, by simp [encodeChar, unitsOf, hbmp], ?_, ?_, ?_⟩
    · simp [isLead]
      omega
    · simp [isTrail]
      omega
    · simp
      omega
  · right
    have hmax : c.toNat ≤ 0x10FFFF := by
      omega
    have hu : (UInt16.ofNat (0xD800 + (c.toNat - 0x10000) / 0x400)).toNat =
        0xD800 + (c.toNat - 0x10000) / 0x400 :=
      UInt16.toNat_ofNat_of_lt' (by rw [UInt16.size]; omega)
    have hv : (UInt16.ofNat (0xDC00 + (c.toNat - 0x10000) % 0x400)).toNat =
        0xDC00 + (c.toNat - 0x10000) % 0x400 :=
      UInt16.toNat_ofNat_of_lt' (by rw [UInt16.size]; omega)
    refine ⟨_, _, by rw [encodeChar, unitsOf, if_neg hbmp, if_pos hmax], ?_, ?_, ?_, ?_, ?_⟩
    · rw [isLead, hu, decide_eq_true_iff]
      omega
    · rw [isTrail, hu, decide_eq_false_iff_not]
      omega
    · rw [isTrail, hv, decide_eq_true_iff]
      omega
    · rw [isLead, hv, decide_eq_false_iff_not]
      omega
    · rw [supplementary_eq hu hv, Nat.add_sub_cancel' (Nat.le_of_not_lt hbmp)]

@[simp] theorem encode_nil : encode [] = [] := rfl

@[simp] theorem encode_cons (c : Char) (cs : List Char) :
    encode (c :: cs) = encodeChar c ++ encode cs := by
  simp [encode]

@[simp] theorem encode_append (cs ds : List Char) :
    encode (cs ++ ds) = encode cs ++ encode ds := by
  simp [encode]

theorem width_pos (c : Char) : 0 < width c := by
  rcases encodeChar_cases c with ⟨u, h, _⟩ | ⟨u, v, h, _⟩ <;> simp [width, h]

theorem width_of_bmp {c : Char} (h : c.toNat < 0x10000) : width c = 1 := by
  simp [width, encodeChar, unitsOf, h]

theorem length_encode (cs : List Char) : (encode cs).length = ForLoop.extent width cs := by
  induction cs with
  | nil =>
      rfl
  | cons c cs ih =>
      simp [ih, width]

theorem length_le_length_encode (cs : List Char) : cs.length ≤ (encode cs).length := by
  induction cs with
  | nil =>
      exact Nat.le_refl _
  | cons c cs ih =>
      have hpos := width_pos c
      rw [length_encode, ForLoop.extent_cons, ← length_encode, List.length_cons]
      omega

theorem encodeChar_ne_nil (c : Char) : encodeChar c ≠ [] :=
  List.ne_nil_of_length_pos (width_pos c)

/-! ## Decoding undoes encoding -/

theorem decode_encodeChar_append (c : Char) (us : List UInt16) :
    decode (encodeChar c ++ us) = c :: decode us := by
  rcases encodeChar_cases c with ⟨u, h, hlead, htrail, hu⟩ | ⟨u, v, h, hlead, _, htrail, _, huv⟩
  · have hunit : decodeUnit u = c := by
      simp [decodeUnit, hlead, htrail, hu]
    cases us with
    | nil =>
        simp [h, decode, hunit]
    | cons v us =>
        simp [h, decode, hlead, hunit]
  · simp [h, decode, hlead, htrail, huv]

theorem decode_encode (cs : List Char) : decode (encode cs) = cs := by
  induction cs with
  | nil =>
      rfl
  | cons c cs ih =>
      rw [encode_cons, decode_encodeChar_append, ih]

theorem wellFormed_encode (cs : List Char) : wellFormed (encode cs) = true := by
  induction cs with
  | nil =>
      rfl
  | cons c cs ih =>
      rcases encodeChar_cases c with ⟨u, h, hlead, htrail, _⟩ | ⟨u, v, h, hlead, _, htrail, _⟩
      · cases hrest : encode cs with
        | nil =>
            simp [h, hrest, wellFormed, hlead, htrail]
        | cons w us =>
            rw [hrest] at ih
            simp [h, hrest, wellFormed, hlead, htrail, ih]
      · simp [h, wellFormed, hlead, htrail, ih]

/-! ## Encoding undoes decoding -/

theorem toNat_ofNat_scalar {n : Nat} (h : n.isValidChar) : (Char.ofNat n).toNat = n := by
  rw [Char.ofNat, dif_pos h]
  rfl

theorem encodeChar_decodeUnit {u : UInt16} (hlead : isLead u = false) (htrail : isTrail u = false) :
    encodeChar (decodeUnit u) = [u] := by
  have hu : u.toNat < 0x10000 := u.toNat_lt
  have hscalar : u.toNat.isValidChar := by
    have hlead' : ¬ (0xD800 ≤ u.toNat ∧ u.toNat ≤ 0xDBFF) := of_decide_eq_false hlead
    have htrail' : ¬ (0xDC00 ≤ u.toNat ∧ u.toNat ≤ 0xDFFF) := of_decide_eq_false htrail
    unfold Nat.isValidChar
    omega
  have hunit : decodeUnit u = Char.ofNat u.toNat := by
    simp [decodeUnit, hlead, htrail]
  rw [hunit, encodeChar, toNat_ofNat_scalar hscalar, unitsOf, if_pos hu]
  simp

theorem encodeChar_supplementary {u v : UInt16} (hlead : isLead u = true) (htrail : isTrail v = true) :
    encodeChar (Char.ofNat (supplementary u v)) = [u, v] := by
  have hu : 0xD800 ≤ u.toNat ∧ u.toNat ≤ 0xDBFF := of_decide_eq_true hlead
  have hv : 0xDC00 ≤ v.toNat ∧ v.toNat ≤ 0xDFFF := of_decide_eq_true htrail
  have hvalue : supplementary u v =
      0x10000 + (u.toNat - 0xD800) * 0x400 + (v.toNat - 0xDC00) := rfl
  have hscalar : (supplementary u v).isValidChar := by
    unfold Nat.isValidChar
    omega
  have hfirst : 0xD800 + (supplementary u v - 0x10000) / 0x400 = u.toNat := by
    omega
  have hsecond : 0xDC00 + (supplementary u v - 0x10000) % 0x400 = v.toNat := by
    omega
  rw [encodeChar, toNat_ofNat_scalar hscalar, unitsOf, if_neg (by omega),
    if_pos (by omega), hfirst, hsecond]
  simp

/-- Every well-formed text is the encoding of its code points. -/
theorem encode_decode {us : List UInt16} (h : wellFormed us = true) : encode (decode us) = us := by
  induction us using decode.induct with
  | case1 =>
      rfl
  | case2 u =>
      have hu : isLead u = false ∧ isTrail u = false := by
        simpa [wellFormed] using h
      simp [decode, encodeChar_decodeUnit hu.1 hu.2]
  | case3 u v us hpair ih =>
      have hparts : isLead u = true ∧ isTrail v = true := by
        simpa using hpair
      have hrest : wellFormed us = true := by
        simpa [wellFormed, hparts.1, hparts.2] using h
      rw [decode, if_pos hpair, encode_cons, encodeChar_supplementary hparts.1 hparts.2, ih hrest]
      rfl
  | case4 u v us hpair ih =>
      have hlead : isLead u = false := by
        cases hu : isLead u with
        | false => rfl
        | true => simp_all [wellFormed]
      have hparts : isTrail u = false ∧ wellFormed (v :: us) = true := by
        simpa [wellFormed, hlead] using h
      rw [decode, if_neg hpair, encode_cons, encodeChar_decodeUnit hlead hparts.1, ih hparts.2]
      rfl

/-! ## Reading at the offset of a code point -/

theorem charAt_append (us vs : List UInt16) (i : Nat) :
    charAt (us ++ vs) (us.length + i) = charAt vs i := by
  simp [charAt, List.getElem?_append_right]

theorem char32At_encode (pre : List Char) (c : Char) (post : List Char) :
    char32At (encode (pre ++ c :: post)) (ForLoop.extent width pre) = c.toNat := by
  rw [← length_encode, encode_append, encode_cons]
  -- the units of `c` start right after those of `pre`
  have h0 := charAt_append (encode pre) (encodeChar c ++ encode post) 0
  have h1 := charAt_append (encode pre) (encodeChar c ++ encode post) 1
  rw [Nat.add_zero] at h0
  rcases encodeChar_cases c with ⟨u, h, hlead, htrail, hu⟩ | ⟨u, v, h, hlead, _, htrail, _, huv⟩
  · simp only [h] at h0 ⊢
    simp only [char32At, h0]
    simp [charAt, hlead, htrail, hu]
  · simp only [h] at h0 h1 ⊢
    simp only [char32At, h0, h1]
    simp [charAt, hlead, htrail, huv]

/-- The unit at the offset of a code point is a lead surrogate exactly when it takes two units. -/
theorem isLead_charAt_encode (pre : List Char) (c : Char) (post : List Char) :
    isLead (charAt (encode (pre ++ c :: post)) (ForLoop.extent width pre)) =
      decide (width c = 2) := by
  rw [← length_encode, encode_append, encode_cons]
  have h0 := charAt_append (encode pre) (encodeChar c ++ encode post) 0
  rw [Nat.add_zero] at h0
  rcases encodeChar_cases c with ⟨u, h, hlead, _⟩ | ⟨u, v, h, hlead, _⟩
  · rw [h0]
    simp [h, charAt, width, hlead]
  · rw [h0]
    simp [h, charAt, width, hlead]

theorem width_le_two (c : Char) : width c ≤ 2 := by
  rcases encodeChar_cases c with ⟨u, h, _⟩ | ⟨u, v, h, _⟩ <;> simp [width, h]

/-- Stepping over the trail unit after a lead leaves the index on the last unit of the code
point. -/
theorem skipTrail_encode (pre : List Char) (c : Char) (post : List Char) :
    (if isLead (charAt (encode (pre ++ c :: post)) (ForLoop.extent width pre)) then
        ForLoop.extent width pre + 1
      else
        ForLoop.extent width pre) =
      ForLoop.extent width pre + (width c - 1) := by
  have hpos := width_pos c
  have hle := width_le_two c
  rw [isLead_charAt_encode]
  -- a lead surrogate stands exactly where the code point takes two units
  by_cases h : width c = 2
  · simp [h]
  · have hone : width c = 1 := by
      omega
    simp [hone]

/-! ## Index loops over an encoded text -/

section Loops

variable {σ : Type} {cs : List Char} {body : Nat → σ → Nat × σ} {step : σ → Char → σ}

theorem run_encode (h : ForLoop.Follows width cs body step) (s : σ) :
    ForLoop.run (encode cs).length body s = cs.foldl step s := by
  rw [length_encode]
  exact ForLoop.run_eq_foldl width_pos h s

/-- The code points an index loop reads with `char32At`, one for each iteration. -/
def visited (us : List UInt16) (body : Nat → σ → Nat × σ) (s : σ) : List Nat :=
  ForLoop.visits us.length (char32At us) body s

theorem visited_encode (h : ForLoop.Follows width cs body step) (s : σ) :
    visited (encode cs) body s = cs.map Char.toNat := by
  rw [visited, length_encode]
  refine ForLoop.visits_eq_map width_pos h ?_ s
  rintro pre c post rfl
  exact char32At_encode pre c post

end Loops

end Utf16
end Library
