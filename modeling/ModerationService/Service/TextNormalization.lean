import ModerationService.Model.Constants

/-!
# TextNormalization — the four text stages before the leetspeak map

`service/text_normalization.cpp`.  Each stage decodes its input to UTF-16, walks it with an index
loop (`Library.ForLoop`) and returns UTF-8.  The loop bodies are definitions of their own: a step
on the accumulator (the local variables of the source), and the index the iteration leaves behind.
-/

namespace ModerationService
namespace TextNormalization

open Library Icu UnicodeConstants

/-- `if (U16_IS_LEAD(text.charAt(i))) { i++; }`. -/
def skipTrail (text : UnicodeString) (i : Nat) : Nat :=
  if Utf16.isLead (Utf16.charAt text i) then i + 1 else i

/-! ## `TextNormalization` -/

/-- An ICU failure is logged and answered with the empty string. -/
def textNormalization (icu : Icu) (textN : StdString) : StdString :=
  let text := icu.fromUTF8 textN
  if uFailure icu.getNFCInstance then
    []
  else
    let (normalized, status) := icu.normalize (Utf16.decode text)
    if uFailure status then
      []
    else
      -- `result_` is lower-cased and trimmed before it becomes UTF-8
      let result_ := Utf16.encode (icu.toLower normalized)
      toUTF8String (icu.trim result_)

/-! ## `WhitespaceNormalization` -/

structure WhitespaceState where
  result : UnicodeString
  prev_space : Bool

def whitespaceStep (icu : Icu) (character : UChar32) (s : WhitespaceState) : WhitespaceState :=
  if icu.uIsWhitespace character then
    -- no second blank in a row, and none at the start
    if !s.prev_space && decide (0 < s.result.length) then
      { result := append s.result 0x20, prev_space := true }
    else
      s
  else
    { result := append s.result character, prev_space := false }

def whitespaceBody (icu : Icu) (text : UnicodeString) (i : Nat) (s : WhitespaceState) :
    Nat × WhitespaceState :=
  let character := Utf16.char32At text i
  (skipTrail text i, whitespaceStep icu character s)

def whitespaceNormalization (icu : Icu) (textN : StdString) : StdString :=
  let text := icu.fromUTF8 textN
  toUTF8String (ForLoop.run text.length (whitespaceBody icu text) ⟨[], false⟩).result

/-! ## `RepetitionNormalization` -/

structure RepetitionState where
  result : UnicodeString
  prevChar : UChar32

def repetitionStep (character : UChar32) (s : RepetitionState) : RepetitionState :=
  -- `prevChar` starts as 0, so a leading U+0000 is dropped like a repeat
  if character ≠ s.prevChar then
    { result := append s.result character, prevChar := character }
  else
    s

def repetitionBody (text : UnicodeString) (i : Nat) (s : RepetitionState) :
    Nat × RepetitionState :=
  let character := Utf16.char32At text i
  (skipTrail text i, repetitionStep character s)

def repetitionNormalization (icu : Icu) (textN : StdString) : StdString :=
  let text := icu.fromUTF8 textN
  toUTF8String (ForLoop.run text.length (repetitionBody text) ⟨[], 0⟩).result

/-! ## `InvisibleCharacterNormalization` -/

/-- The zero-width and format characters the stage skips. -/
def invisible (character : UChar32) : Bool :=
  character == zeroWidthSpace ||
  character == zeroWidthNonJoiner ||
  character == zeroWidthJoiner ||
  character == leftToRightMark ||
  character == rightToLeftMark ||
  character == zeroWidthNoBreakSpace ||
  character == wordJoiner ||
  character == functionApplication ||
  character == invisibleTimes ||
  character == invisibleSeparator ||
  character == invisiblePlus ||
  character == softHyphen ||
  character == combiningGraphemeJoiner ||
  character == arabicLetterMark ||
  character == mongolianVowelSeparator ||
  character == lineSeparator ||
  character == paragraphSeparator ||
  (decide (bidiMarkersStart ≤ character) && decide (character ≤ bidiMarkersEnd))

theorem invisible_iff (c : Nat) :
    invisible c = true ↔
      c = 0x200B ∨ c = 0x200C ∨ c = 0x200D ∨ c = 0x200E ∨ c = 0x200F ∨ c = 0xFEFF ∨ c = 0x2060 ∨
        c = 0x2061 ∨ c = 0x2062 ∨ c = 0x2063 ∨ c = 0x2064 ∨ c = 0xAD ∨ c = 0x34F ∨ c = 0x61C ∨
        c = 0x180E ∨ c = 0x2028 ∨ c = 0x2029 ∨ (0x202A ≤ c ∧ c ≤ 0x202E) := by
  simp only [invisible, Bool.or_eq_true, beq_iff_eq, Bool.and_eq_true, decide_eq_true_eq,
    or_assoc]
  exact Iff.rfl

/-- Every code point the stage skips is a single code unit. -/
theorem invisible_bmp {c : Nat} (h : invisible c = true) : c < 0x10000 := by
  have hc := (invisible_iff c).1 h
  omega

/-- The `continue` after an invisible character also jumps over the surrogate step. -/
def invisibleBody (text : UnicodeString) (i : Nat) (result : UnicodeString) :
    Nat × UnicodeString :=
  let character := Utf16.char32At text i
  if invisible character then
    (i, result)
  else
    (skipTrail text i, append result character)

def invisibleCharacterNormalization (icu : Icu) (textN : StdString) : StdString :=
  let text := icu.fromUTF8 textN
  toUTF8String (ForLoop.run text.length (invisibleBody text) [])

end TextNormalization
end ModerationService
