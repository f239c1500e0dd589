import ModerationService.Service.LatinObfuscation

/-!
# Orientation — the leetspeak map under the orientation it was chosen by

The Cyrillic tables write Cyrillic letters only and the Latin table writes Latin letters only, so
mapping a text moves its two letter counts further apart, and what has been written is not mapped
again.
-/

namespace ModerationService
namespace Orientation

open Library CodePoints TextProcessingConstants LeetspeakNormalization LoopRefinement
open Stretching OnePass LatinObfuscation

variable {icu : Icu}

/-! ## What the tables write -/

/-- The tables an orientation looks a code point up in. -/
def tables : Bool → CharMap
  | true => homoglyphMap ++ leetMapCyrillic
  | false => leetMapLatin

/-- A code point is kept, or a table says what it becomes. -/
theorem leetChar_cases (isCyrillic : Bool) (c : Char) :
    leetChar isCyrillic c = c ∨ (c, leetChar isCyrillic c) ∈ tables isCyrillic := by
  cases isCyrillic with
  | true =>
      cases hhomoglyph : lookup homoglyphMap c with
      | some d =>
          right
          have hmem := mem_of_lookup hhomoglyph
          simpa [leetChar, hhomoglyph, tables] using Or.inl hmem
      | none =>
          cases hleet : lookup leetMapCyrillic c with
          | some d =>
              right
              have hmem := mem_of_lookup hleet
              simpa [leetChar, hhomoglyph, hleet, tables] using Or.inr hmem
          | none =>
              left
              simp [leetChar, hhomoglyph, hleet]
  | false =>
      cases hleet : lookup leetMapLatin c with
      | some d =>
          right
          have hmem := mem_of_lookup hleet
          simpa [leetChar, hleet, tables] using hmem
      | none =>
          left
          simp [leetChar, hleet]

theorem cyrillic_entries : ∀ entry ∈ tables true, cyrillic entry.2 = true := by
  decide +kernel

theorem latin_entries : ∀ entry ∈ tables false,
    latin entry.1 = false ∧ latin entry.2 = true ∧ leetChar false entry.2 = entry.2 := by
  decide +kernel

theorem leetChar_cyrillic {c : Char} (h : cyrillic c = true) (isCyrillic : Bool) :
    leetChar isCyrillic c = c := by
  have hrange := (cyrillicLetter_iff c.toNat).1 h
  exact leetChar_of_unprintable (Or.inr (Nat.lt_of_lt_of_le (by decide) hrange.1)) isCyrillic

/-- What has been written is not mapped again. -/
theorem leetChar_idem (isCyrillic : Bool) (c : Char) :
    leetChar isCyrillic (leetChar isCyrillic c) = leetChar isCyrillic c := by
  rcases leetChar_cases isCyrillic c with hkept | hentry
  · rw [hkept, hkept]
  · cases isCyrillic with
    | true => exact leetChar_cyrillic (cyrillic_entries _ hentry) true
    | false => exact (latin_entries _ hentry).2.2

theorem leetStage_idem (isCyrillic : Bool) (cs : List Char) :
    leetStage isCyrillic (leetStage isCyrillic cs) = leetStage isCyrillic cs := by
  simp [leetStage, leetChar_idem]

/-! ## The two counts -/

/-- The Cyrillic orientation keeps the Cyrillic letters and adds no Latin one. -/
theorem letters_true (c : Char) :
    (cyrillic c = true → cyrillic (leetChar true c) = true) ∧
      (latin (leetChar true c) = true → latin c = true) := by
  rcases leetChar_cases true c with hkept | hentry
  · simp [hkept]
  · have hcyrillic := cyrillic_entries _ hentry
    have hlatin := latin_of_cyrillic hcyrillic
    simp [hcyrillic, hlatin]

/-- The Latin orientation keeps the Latin letters and adds no Cyrillic one. -/
theorem letters_false (c : Char) :
    (latin c = true → latin (leetChar false c) = true) ∧
      (cyrillic (leetChar false c) = true → cyrillic c = true) := by
  rcases leetChar_cases false c with hkept | hentry
  · simp [hkept]
  · have hlatin := (latin_entries _ hentry).2.1
    refine ⟨fun _ => hlatin, ?_⟩
    intro hcyrillic
    simp [latin_of_cyrillic hcyrillic] at hlatin

theorem countP_leetStage (p : Char → Bool) (isCyrillic : Bool) (cs : List Char) :
    (leetStage isCyrillic cs).countP p = cs.countP (fun c => p (leetChar isCyrillic c)) := by
  simp [leetStage, List.countP_map, Function.comp_def]

/-- The counts move apart, so the orientation of the mapped text is that of the text. -/
theorem primarilyCyrillic_leetStage (cs : List Char) :
    primarilyCyrillic (leetStage (primarilyCyrillic cs) cs) = primarilyCyrillic cs := by
  cases horientation : primarilyCyrillic cs with
  | true =>
      have hlt : cs.countP latin < cs.countP cyrillic := of_decide_eq_true horientation
      have hcyrillic : cs.countP cyrillic ≤ (leetStage true cs).countP cyrillic := by
        rw [countP_leetStage]
        exact List.countP_mono_left (fun c _ hc => (letters_true c).1 hc)
      have hlatin : (leetStage true cs).countP latin ≤ cs.countP latin := by
        rw [countP_leetStage]
        exact List.countP_mono_left (fun c _ hc => (letters_true c).2 hc)
      exact decide_eq_true (Nat.lt_of_le_of_lt hlatin (Nat.lt_of_lt_of_le hlt hcyrillic))
  | false =>
      have hle : cs.countP cyrillic ≤ cs.countP latin :=
        Nat.le_of_not_lt (of_decide_eq_false horientation)
      have hlatin : cs.countP latin ≤ (leetStage false cs).countP latin := by
        rw [countP_leetStage]
        exact List.countP_mono_left (fun c _ hc => (letters_false c).1 hc)
      have hcyrillic : (leetStage false cs).countP cyrillic ≤ cs.countP cyrillic := by
        rw [countP_leetStage]
        exact List.countP_mono_left (fun c _ hc => (letters_false c).2 hc)
      exact decide_eq_false (Nat.not_lt.2 (hcyrillic.trans (hle.trans hlatin)))

/-! ## The stages -/

/-- `LeetspeakNormalization` under the orientation of its own input. -/
def leet (icu : Icu) (textN : StdString) : StdString :=
  leetspeakNormalization icu textN (isPrimarilyCyrillic icu textN)

theorem decode_leet (h : icu.Transcodes) (textN : StdString) :
    icu.decodeUTF8 (leet icu textN) =
      leetStage (primarilyCyrillic (icu.decodeUTF8 textN)) (icu.decodeUTF8 textN) := by
  rw [leet, leetspeakNormalization_eq, h.decode_encode, isPrimarilyCyrillic_eq]

/-- The leetspeak stage keeps the orientation, and a second one changes nothing. -/
theorem leet_stable (h : icu.Transcodes) (textN : StdString) :
    isPrimarilyCyrillic icu (leet icu textN) = isPrimarilyCyrillic icu textN ∧
      leet icu (leet icu textN) = leet icu textN := by
  have horientation :
      isPrimarilyCyrillic icu (leet icu textN) = isPrimarilyCyrillic icu textN := by
    rw [isPrimarilyCyrillic_eq, isPrimarilyCyrillic_eq, decode_leet h,
      primarilyCyrillic_leetStage]
  refine ⟨horientation, ?_⟩
  calc
    leet icu (leet icu textN)
        = Utf8.encode (leetStage (isPrimarilyCyrillic icu textN)
            (icu.decodeUTF8 (leet icu textN))) := by
          rw [leet, leetspeakNormalization_eq, horientation]
    _ = Utf8.encode (leetStage (isPrimarilyCyrillic icu textN) (icu.decodeUTF8 textN)) := by
          rw [decode_leet h, isPrimarilyCyrillic_eq, leetStage_idem]
    _ = leet icu textN := by
          rw [leet, leetspeakNormalization_eq]

/-- A text with as many Latin as Cyrillic letters, before symbols are mapped. -/
theorem leet_stable_mixed :
    let textN := Utf8.encode ['g', '4', 'y', ' ', 'д', 'а', '!']
    isPrimarilyCyrillic SampleIcu.sampleIcu (leet SampleIcu.sampleIcu textN) =
        isPrimarilyCyrillic SampleIcu.sampleIcu textN ∧
      leet SampleIcu.sampleIcu (leet SampleIcu.sampleIcu textN) = leet SampleIcu.sampleIcu textN :=
  leet_stable SampleIcu.sample_transcodes _

end Orientation
end ModerationService
