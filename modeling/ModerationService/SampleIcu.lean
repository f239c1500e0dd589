import ModerationService.Icu

/-!
# SampleIcu — ICU on ASCII and Russian text

A concrete `Icu` that behaves as the library does on texts of ASCII characters, the letters U+0400 to
U+045F, whitespace but U+2000 and U+2001, and the invisible characters: such texts are in NFC
already, and `toLower` works letter by letter.  It shows that the documented facts are consistent, and lets the pipeline be evaluated.
-/

namespace ModerationService
namespace SampleIcu

open Library

/-- `u_isWhitespace`: the separators that break, and the control characters of Java. -/
def sampleWhitespace (c : UChar32) : Bool :=
  decide (0x09 ≤ c ∧ c ≤ 0x0D ∨ 0x1C ≤ c ∧ c ≤ 0x20 ∨ c = 0x1680 ∨ 0x2000 ≤ c ∧ c ≤ 0x2006 ∨
    0x2008 ≤ c ∧ c ≤ 0x200A ∨ c = 0x2028 ∨ c = 0x2029 ∨ c = 0x205F ∨ c = 0x3000)

/-- `u_isalnum` on ASCII and on the Cyrillic block. -/
def sampleAlnum (c : UChar32) : Bool :=
  decide (0x30 ≤ c ∧ c ≤ 0x39 ∨ 0x41 ≤ c ∧ c ≤ 0x5A ∨ 0x61 ≤ c ∧ c ≤ 0x7A ∨
    0x400 ≤ c ∧ c ≤ 0x481 ∨ 0x48A ≤ c ∧ c ≤ 0x4FF)

def sampleLower (c : Char) : Char :=
  if 0x41 ≤ c.toNat ∧ c.toNat ≤ 0x5A ∨ 0x410 ≤ c.toNat ∧ c.toNat ≤ 0x42F then
    Char.ofNat (c.toNat + 0x20)
  else if 0x400 ≤ c.toNat ∧ c.toNat ≤ 0x40F then
    Char.ofNat (c.toNat + 0x50)
  else
    c

def sampleIcu : Icu where
  decodeUTF8 := Utf8.decode
  uIsWhitespace := sampleWhitespace
  uIsalnum := sampleAlnum
  getNFCInstance := 0
  normalize := fun cs => (cs, 0)
  toLower := fun cs => cs.map sampleLower

/-! ## The documented facts hold of it -/

theorem sample_transcodes : sampleIcu.Transcodes :=
  ⟨Utf8.decode_encode⟩

theorem sample_decodesSpace : sampleIcu.DecodesSpace := by
  refine ⟨?_⟩
  intro as bs
  exact Utf8.decode_append_ascii (by decide) as bs

theorem sampleWhitespace_iff (c : Nat) :
    sampleWhitespace c = true ↔
      0x09 ≤ c ∧ c ≤ 0x0D ∨ 0x1C ≤ c ∧ c ≤ 0x20 ∨ c = 0x1680 ∨ 0x2000 ≤ c ∧ c ≤ 0x2006 ∨
        0x2008 ≤ c ∧ c ≤ 0x200A ∨ c = 0x2028 ∨ c = 0x2029 ∨ c = 0x205F ∨ c = 0x3000 := by
  unfold sampleWhitespace
  exact decide_eq_true_iff

theorem sampleAlnum_iff (c : Nat) :
    sampleAlnum c = true ↔
      0x30 ≤ c ∧ c ≤ 0x39 ∨ 0x41 ≤ c ∧ c ≤ 0x5A ∨ 0x61 ≤ c ∧ c ≤ 0x7A ∨
        0x400 ≤ c ∧ c ≤ 0x481 ∨ 0x48A ≤ c ∧ c ≤ 0x4FF := by
  unfold sampleAlnum
  exact decide_eq_true_iff

theorem sample_classifies : sampleIcu.Classifies where
  whitespace_ascii := by
    intro c hc
    rw [Bool.eq_iff_iff, decide_eq_true_iff]
    refine (sampleWhitespace_iff c).trans ?_
    omega
  alnum_ascii := by
    intro c hc
    rw [Bool.eq_iff_iff, decide_eq_true_iff]
    refine (sampleAlnum_iff c).trans ?_
    omega
  whitespace_cyrillic := by
    intro c hlow hhigh
    rw [← Bool.not_eq_true]
    intro h
    have hc := (sampleWhitespace_iff c).1 h
    omega
  whitespace_format := by
    intro c hformat
    rw [← Bool.not_eq_true]
    intro h
    have hc := (sampleWhitespace_iff c).1 h
    omega
  alnum_cyrillic := by
    intro c hlow hhigh
    refine (sampleAlnum_iff c).2 ?_
    omega
  alnum_whitespace := by
    intro c h
    -- the separators lie outside the ranges of letters and digits
    have hc := (sampleWhitespace_iff c).1 h
    rw [← Bool.not_eq_true]
    intro h'
    have hc' := (sampleAlnum_iff c).1 h'
    omega

theorem sample_normalizes : sampleIcu.Normalizes where
  instance_ok := rfl
  normalize_ok := fun _ => rfl

theorem sample_distributesOverSpace : sampleIcu.DistributesOverSpace where
  normalize_space := fun _ _ => rfl
  toLower_space := by
    intro cs ds
    have hblank : sampleLower ' ' = ' ' := by
      decide
    simp [sampleIcu, hblank]

end SampleIcu
end ModerationService
