import ModerationService.Service.TextNormalization

/-!
# LeetspeakNormalization — alphabet orientation and the leetspeak map

`service/leetspeak_normalization.cpp`.
-/

namespace ModerationService
namespace LeetspeakNormalization

open Library Icu UnicodeConstants TextProcessingConstants TextNormalization

/-- `std::unordered_map::find`, by code point. -/
def find (map : CharMap) (character : UChar32) : Option UChar32 :=
  (map.find? (fun entry => entry.1.toNat == character)).map (fun entry => entry.2.toNat)

/-- The value of `normalized` at the end of the branches: the homoglyph map comes before the
Cyrillic one, and a code point in no map stays. -/
def normalized (isCyrillic : Bool) (character : UChar32) : UChar32 :=
  if isCyrillic then
    match find homoglyphMap character with
    | some homoglyphText => homoglyphText
    | none =>
        -- only where there is no homoglyph
        match find leetMapCyrillic character with
        | some leetedTextCyrillic => leetedTextCyrillic
        | none => character
  else
    match find leetMapLatin character with
    | some leetedText => leetedText
    | none => character

def leetspeakBody (isCyrillic : Bool) (text : UnicodeString) (i : Nat) (result : UnicodeString) :
    Nat × UnicodeString :=
  let character := Utf16.char32At text i
  (skipTrail text i, append result (normalized isCyrillic character))

def leetspeakNormalization (icu : Icu) (textN : StdString) (isCyrillic : Bool) : StdString :=
  let text := icu.fromUTF8 textN
  toUTF8String (ForLoop.run text.length (leetspeakBody isCyrillic text) [])

/-! ## `IsPrimarilyCyrillic` -/

def cyrillicLetter (character : UChar32) : Bool :=
  decide (cyrillicBlockStart ≤ character) && decide (character ≤ cyrillicBlockEnd)

def latinLetter (character : UChar32) : Bool :=
  (decide (latinUppercaseStart ≤ character) && decide (character ≤ latinUppercaseEnd)) ||
  (decide (latinLowercaseStart ≤ character) && decide (character ≤ latinLowercaseEnd))

theorem cyrillicLetter_iff (c : Nat) : cyrillicLetter c = true ↔ 0x400 ≤ c ∧ c ≤ 0x4FF := by
  simp only [cyrillicLetter, Bool.and_eq_true, decide_eq_true_eq]
  exact Iff.rfl

theorem latinLetter_iff (c : Nat) :
    latinLetter c = true ↔ (0x41 ≤ c ∧ c ≤ 0x5A) ∨ (0x61 ≤ c ∧ c ≤ 0x7A) := by
  simp only [latinLetter, Bool.or_eq_true, Bool.and_eq_true, decide_eq_true_eq]
  exact Iff.rfl

structure LetterCounts where
  cyrillicCount : Nat
  latinCount : Nat

def countStep (character : UChar32) (s : LetterCounts) : LetterCounts :=
  if cyrillicLetter character then
    { s with cyrillicCount := s.cyrillicCount + 1 }
  else if latinLetter character then
    { s with latinCount := s.latinCount + 1 }
  else
    s

def countBody (text : UnicodeString) (i : Nat) (s : LetterCounts) : Nat × LetterCounts :=
  let character := Utf16.char32At text i
  (skipTrail text i, countStep character s)

def isPrimarilyCyrillic (icu : Icu) (textN : StdString) : Bool :=
  let text := icu.fromUTF8 textN
  let counts := ForLoop.run text.length (countBody text) ⟨0, 0⟩
  decide (counts.latinCount < counts.cyrillicCount)

end LeetspeakNormalization
end ModerationService
