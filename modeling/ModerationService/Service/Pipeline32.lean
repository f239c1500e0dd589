import Mathlib.Data.List.Flatten
import ModerationService.Service.Width32

/-!
# Pipeline32 — `TextProcessing` in the integer widths of the source

The stages one after the other, with every length that ICU keeps in an `int32_t`: that of the bytes a
stage hands over, of the code units it decodes them to, and of the bytes it encodes its result to.  No
stage after the first makes a text longer in code units, and a code unit takes three bytes at most; so
when the strings of the first stage fit, everything after them fits.
-/

namespace ModerationService
namespace Pipeline32

open Library Icu CodePoints TextNormalization LeetspeakNormalization WordChecker TextProcessor
open LoopRefinement Width32

variable {icu : Icu} {σ : Type} {textN : StdString}

/-! ## Lengths -/

/-- The greatest `int32_t`. -/
def int32Max : Nat := 2 ^ 31 - 1

/-- A string, if its length is an `int32_t`. -/
def sized {α : Type} (s : List α) : Option (List α) :=
  if s.length ≤ int32Max then some s else none

theorem sized_eq_some {α : Type} {s : List α} (h : s.length ≤ int32Max) : sized s = some s :=
  if_pos h

/-- `fromUTF8` of an `icu::StringPiece`, which has the length of the string as an `int32_t`. -/
def checkedFromUTF8 (icu : Icu) (textN : StdString) : Option UnicodeString := do
  let piece ← sized textN
  sized (icu.fromUTF8 piece)

/-- `toUTF8String` asks for a buffer of three bytes for each code unit, and computes this and the
number of bytes as `int32_t`. -/
def checkedToUTF8String (text : UnicodeString) : Option StdString :=
  if 3 * text.length ≤ int32Max then sized (toUTF8String text) else none

theorem utf8Size_of_bmp {c : Char} (h : c.toNat < 0x10000) : c.utf8Size ≤ 3 := by
  have hval : c.val ≤ 0xFFFF := by
    rw [UInt32.le_iff_toNat_le]
    exact Nat.le_of_lt_succ h
  unfold Char.utf8Size
  grind

theorem length_utf8EncodeChar_le (c : Char) :
    (String.utf8EncodeChar c).length ≤ 3 * Utf16.width c := by
  rw [String.length_utf8EncodeChar]
  rcases Utf16.encodeChar_cases c with ⟨u, hunits, _, _, hsame⟩ | ⟨u, v, hunits, _⟩
  · -- one code unit: a character of the basic plane
    have hwidth : Utf16.width c = 1 := by
      simp [Utf16.width, hunits]
    have hbmp : c.toNat < 0x10000 := hsame ▸ u.toNat_lt
    rw [hwidth]
    exact utf8Size_of_bmp hbmp
  · have hwidth : Utf16.width c = 2 := by
      simp [Utf16.width, hunits]
    have hfour := c.utf8Size_le_four
    omega

/-- A code unit takes three bytes at most. -/
theorem length_utf8_le (cs : List Char) :
    (Utf8.encode cs).length ≤ 3 * (Utf16.encode cs).length := by
  induction cs with
  | nil =>
      exact Nat.le_refl _
  | cons c cs ih =>
      have hchar := length_utf8EncodeChar_le c
      rw [Utf8.encode_cons, Utf16.encode_cons, List.length_append, List.length_append, Nat.mul_add]
      exact Nat.add_le_add hchar ih

/-! ## The stages -/

def textNormalization32 (icu : Icu) (textN : StdString) : Option StdString := do
  let text ← checkedFromUTF8 icu textN
  if uFailure icu.getNFCInstance then
    return []
  else
    let (normalized, status) := icu.normalize (Utf16.decode text)
    if uFailure status then
      return []
    else
      let normalized ← sized (Utf16.encode normalized)
      let result_ ← sized (Utf16.encode (icu.toLower (Utf16.decode normalized)))
      checkedToUTF8String (icu.trim result_)

/-- A stage that builds a text: its input is decoded, walked by a loop, and the result encoded. -/
def stage32 (icu : Icu) (body : UnicodeString → Int32 → σ → Option (Int32 × σ))
    (built : σ → UnicodeString) (s : σ) (textN : StdString) : Option StdString := do
  let text ← checkedFromUTF8 icu textN
  let s' ← Int32Loop.run (length text) (body text) s
  checkedToUTF8String (built s')

def invisibleCharacterNormalization32 (icu : Icu) : StdString → Option StdString :=
  stage32 icu invisibleBody32 id []

def whitespaceNormalization32 (icu : Icu) : StdString → Option StdString :=
  stage32 icu (whitespaceBody32 icu) WhitespaceState.result ⟨[], false⟩

def repetitionNormalization32 (icu : Icu) : StdString → Option StdString :=
  stage32 icu repetitionBody32 RepetitionState.result ⟨[], 0⟩

def leetspeakNormalization32 (icu : Icu) (textN : StdString) (isCyrillic : Bool) :
    Option StdString :=
  stage32 icu (leetspeakBody32 isCyrillic) id [] textN

def textProcessing32 (icu : Icu) (textN : StdString) : Option Bool := do
  let text ← textNormalization32 icu textN
  let text ← invisibleCharacterNormalization32 icu text
  let text ← whitespaceNormalization32 icu text
  let text ← repetitionNormalization32 icu text
  let alphabetOrientation ← isPrimarilyCyrillic32 (← checkedFromUTF8 icu text)
  let text ← leetspeakNormalization32 icu text alphabetOrientation
  let wordTokens ← tokenize32 icu (← checkedFromUTF8 icu text)
  return wordChecking32 wordTokens

/-! ## No stage leaves the range -/

/-- What the first stage makes of a text has `int32_t` lengths: the text, its code units and, where
the normalizer does not fail, the normalised and the lower-cased text, the latter three times over. -/
structure Fits (icu : Icu) (textN : StdString) : Prop where
  bytes : textN.length ≤ int32Max
  units : (icu.fromUTF8 textN).length ≤ int32Max
  normalized : uFailure icu.getNFCInstance = false →
    uFailure (icu.normalize (icu.decodeUTF8 textN)).2 = false →
      (Utf16.encode (icu.normalize (icu.decodeUTF8 textN)).1).length ≤ int32Max
  lower : uFailure icu.getNFCInstance = false →
    uFailure (icu.normalize (icu.decodeUTF8 textN)).2 = false →
      3 * (Utf16.encode (icu.toLower (icu.normalize (icu.decodeUTF8 textN)).1)).length ≤ int32Max

/-- A text that every later stage can take. -/
structure Small (icu : Icu) (textN : StdString) : Prop where
  bytes : textN.length ≤ int32Max
  units : 3 * (icu.fromUTF8 textN).length ≤ int32Max

/-- A stage with all its checks has the result of the stage of the model, which is small again. -/
structure Stays (icu : Icu) (checked : Option StdString) (result : StdString) : Prop where
  eq_some : checked = some result
  small : Small icu result

theorem small_encode (h : icu.Transcodes) {cs : List Char}
    (hunits : 3 * (Utf16.encode cs).length ≤ int32Max) : Small icu (Utf8.encode cs) where
  bytes := (length_utf8_le cs).trans hunits
  units := by
    rw [fromUTF8, h.decode_encode]
    exact hunits

theorem checkedFromUTF8_eq (hbytes : textN.length ≤ int32Max)
    (hunits : (icu.fromUTF8 textN).length ≤ int32Max) :
    checkedFromUTF8 icu textN = some (icu.fromUTF8 textN) := by
  simp only [checkedFromUTF8, sized_eq_some hbytes, Option.bind_eq_bind, Option.bind_some,
    sized_eq_some hunits]

theorem checkedToUTF8String_encode {cs : List Char}
    (hunits : 3 * (Utf16.encode cs).length ≤ int32Max) :
    checkedToUTF8String (Utf16.encode cs) = some (Utf8.encode cs) := by
  rw [checkedToUTF8String, if_pos hunits, toUTF8String_encode]
  exact sized_eq_some ((length_utf8_le cs).trans hunits)

theorem Small.units_le (hsmall : Small icu textN) : (icu.fromUTF8 textN).length ≤ int32Max := by
  have hunits := hsmall.units
  omega

theorem Small.decodes (hsmall : Small icu textN) :
    checkedFromUTF8 icu textN = some (icu.fromUTF8 textN) :=
  checkedFromUTF8_eq hsmall.bytes hsmall.units_le

theorem Small.loops_inRange (hsmall : Small icu textN) : InRange icu (icu.fromUTF8 textN) :=
  inRange_encode (Nat.lt_of_le_of_lt hsmall.units_le (by decide)) icu

/-- Trimming drops characters. -/
theorem length_trimmed_le (icu : Icu) (cs : List Char) :
    (Utf16.encode (icu.trimmed cs)).length ≤ (Utf16.encode cs).length := by
  have hsublist : (icu.trimmed cs).Sublist cs :=
    (List.rdropWhile_prefix _ _).sublist.trans (List.dropWhile_sublist _)
  exact (hsublist.flatMap Utf16.encodeChar).length_le

theorem textNormalization32_stays (h : icu.Transcodes) (hfits : Fits icu textN) :
    Stays icu (textNormalization32 icu textN) (textNormalization icu textN) := by
  -- where ICU fails, the stage returns the empty string
  have hnothing : 3 * (Utf16.encode []).length ≤ int32Max := by
    decide
  have hempty : Small icu [] := small_encode h hnothing
  have hdecode := checkedFromUTF8_eq hfits.bytes hfits.units
  simp only [textNormalization32, textNormalization, hdecode, decode_fromUTF8, Option.bind_eq_bind,
    Option.bind_some, Option.pure_def]
  split_ifs with hinstance hstatus
  · exact ⟨rfl, hempty⟩
  · exact ⟨rfl, hempty⟩
  · -- the normalizer has not failed
    have hnormalized := hfits.normalized (by simpa using hinstance) (by simpa using hstatus)
    have hlower := hfits.lower (by simpa using hinstance) (by simpa using hstatus)
    have hlength := length_trimmed_le icu (icu.toLower (icu.normalize (icu.decodeUTF8 textN)).1)
    have hunits : 3 * (Utf16.encode (icu.trimmed
        (icu.toLower (icu.normalize (icu.decodeUTF8 textN)).1))).length ≤ int32Max := by
      omega
    have hlowered : (Utf16.encode (icu.toLower (icu.normalize (icu.decodeUTF8 textN)).1)).length ≤
        int32Max := by
      omega
    rw [trim_encode, toUTF8String_encode]
    refine ⟨?_, small_encode h hunits⟩
    simp only [sized_eq_some hnormalized, Option.bind_some, Utf16.decode_encode,
      sized_eq_some hlowered, trim_encode, checkedToUTF8String_encode hunits]

theorem stage32_stays (h : icu.Transcodes) (hsmall : Small icu textN)
    {checkedBody : UnicodeString → Int32 → σ → Option (Int32 × σ)} {body : Nat → σ → Nat × σ}
    {built : σ → UnicodeString} {s : σ} {cs : List Char}
    (hloop : Checked (icu.fromUTF8 textN) (checkedBody (icu.fromUTF8 textN)) body built s)
    (hresult : built (ForLoop.run (icu.fromUTF8 textN).length body s) = Utf16.encode cs) :
    Stays icu (stage32 icu checkedBody built s textN) (Utf8.encode cs) := by
  have hbuilt := hloop.built_le
  have hunits : 3 * (Utf16.encode cs).length ≤ int32Max := by
    rw [← hresult]
    exact (Nat.mul_le_mul_left 3 hbuilt).trans hsmall.units
  refine ⟨?_, small_encode h hunits⟩
  simp only [stage32, hsmall.decodes, hloop.run_eq, hresult, checkedToUTF8String_encode hunits,
    Option.bind_eq_bind, Option.bind_some]

theorem invisibleCharacterNormalization32_stays (h : icu.Transcodes) (hsmall : Small icu textN) :
    Stays icu (invisibleCharacterNormalization32 icu textN)
      (invisibleCharacterNormalization icu textN) := by
  rw [invisibleCharacterNormalization_eq]
  exact stage32_stays h hsmall hsmall.loops_inRange.invisible (invisibleLoop_eq _)

theorem whitespaceNormalization32_stays (h : icu.Transcodes) (hsmall : Small icu textN) :
    Stays icu (whitespaceNormalization32 icu textN) (whitespaceNormalization icu textN) := by
  rw [whitespaceNormalization_eq]
  exact stage32_stays h hsmall hsmall.loops_inRange.whitespace (whitespaceLoop_eq _)

theorem repetitionNormalization32_stays (h : icu.Transcodes) (hsmall : Small icu textN) :
    Stays icu (repetitionNormalization32 icu textN) (repetitionNormalization icu textN) := by
  rw [repetitionNormalization_eq]
  exact stage32_stays h hsmall hsmall.loops_inRange.repetition (repetitionLoop_eq _)

theorem leetspeakNormalization32_stays (h : icu.Transcodes) (hsmall : Small icu textN)
    (isCyrillic : Bool) :
    Stays icu (leetspeakNormalization32 icu textN isCyrillic)
      (leetspeakNormalization icu textN isCyrillic) := by
  rw [leetspeakNormalization_eq]
  exact stage32_stays h hsmall (hsmall.loops_inRange.leetspeak isCyrillic)
    (leetspeakLoop_eq isCyrillic _)

/-- The verdict of the model is the one over an `unsigned int`. -/
theorem wordChecking32_small (hsmall : Small icu textN) :
    wordChecking32 (tokenize icu textN) = wordChecking (tokenize icu textN) := by
  have htokens := hsmall.loops_inRange.tokens_length
  have hlength : (icu.fromUTF8 textN).length ≤ 2 ^ 31 - 1 := hsmall.units_le
  rw [← tokenize_eq_tokenizeText] at htokens
  exact wordChecking32_eq (by omega)

/-- `TextProcessing` with every check is `TextProcessing`, for every text that the first stage can
take. -/
theorem textProcessing32_eq (h : icu.Transcodes) (hfits : Fits icu textN) :
    textProcessing32 icu textN = some (textProcessing icu textN) := by
  have hnormalized := textNormalization32_stays h hfits
  have hinvisible := invisibleCharacterNormalization32_stays h hnormalized.small
  have hwhitespace := whitespaceNormalization32_stays h hinvisible.small
  have hrepetition := repetitionNormalization32_stays h hwhitespace.small
  have horientation : isPrimarilyCyrillic32 (icu.fromUTF8 (repetitionNormalization icu
      (whitespaceNormalization icu (invisibleCharacterNormalization icu
        (textNormalization icu textN))))) = some (isPrimarilyCyrillic icu _) :=
    hrepetition.small.loops_inRange.orientation
  have hleet := fun isCyrillic => leetspeakNormalization32_stays h hrepetition.small isCyrillic
  have htokens := fun isCyrillic => (hleet isCyrillic).small.loops_inRange.tokenize
  have hverdict := fun isCyrillic => wordChecking32_small (hleet isCyrillic).small
  -- each stage gives what it is to give, and hands on a text that the next one can take
  simp only [textProcessing32, hnormalized.eq_some, hinvisible.eq_some, hwhitespace.eq_some,
    hrepetition.eq_some, hrepetition.small.decodes, horientation, (hleet _).eq_some,
    (hleet _).small.decodes, htokens, ← tokenize_eq_tokenizeText, hverdict, Option.bind_eq_bind,
    Option.bind_some, Option.pure_def]
  rfl

/-- Surrogate pairs inside and outside the words of a flagged text. -/
theorem textProcessing32_eq_sample :
    textProcessing32 SampleIcu.sampleIcu
      (Utf8.encode ['g', 'a', 'y', ' ', '😀', ' ', 'G', '4', 'y', ' ', 'g', 'g', 'a', 'y', ' ',
        'g', 'a', 'y', '😀']) = some true := by
  have hfits : Fits SampleIcu.sampleIcu
      (Utf8.encode ['g', 'a', 'y', ' ', '😀', ' ', 'G', '4', 'y', ' ', 'g', 'g', 'a', 'y', ' ',
        'g', 'a', 'y', '😀']) := by
    refine ⟨by decide +kernel, by decide +kernel, fun _ _ => ?_, fun _ _ => ?_⟩
    · decide +kernel
    · decide +kernel
  rw [textProcessing32_eq SampleIcu.sample_transcodes hfits]
  decide +kernel

end Pipeline32
end ModerationService
