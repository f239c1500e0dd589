import ModerationService.Service.Orientation

/-!
# Evasion — how long a flagged text is, and what appended text can hide

Two limits of the verdict that follow from its shape.

* A forbidden token takes up at least four code points of the normalised text, its own and the
  separator, so a flagged text has at least fifteen of them (`flagged_length`).
* Tokens add up over appended text while the orientation is that of the whole.  Enough letters of one
  alphabet turn it either way (`textProcessing_padded`), so a text can be cleared by appending to it
  exactly when it passes under one of the two orientations (`cleared_iff`).

Under the Cyrillic orientation no token has a letter with a homoglyph left (`tokens_without_keys`), so
the Latin forbidden word is never found there.
-/

namespace ModerationService
namespace Evasion

open Library Library.Runs Library.Collapse Icu CodePoints TextProcessingConstants
open TextNormalization LeetspeakNormalization WordChecker TextProcessor LoopRefinement OnePass
open Locality Stretching

variable {icu : Icu} {F : List Char → Nat}

/-! ## The length of a flagged text -/

/-- Dropping, collapsing and mapping never lengthen a run. -/
theorem length_yielded_le (isCyrillic : Bool) (run : List Char) :
    (yielded isCyrillic run).length ≤ run.length := by
  have hdropped : (run.filter visible).Sublist run := List.filter_sublist
  have hcollapsed : ((run.filter visible).destutter (· ≠ ·)).Sublist (run.filter visible) :=
    List.destutter_sublist _ _
  rw [yielded, List.length_map]
  exact (hcollapsed.trans hdropped).length_le

theorem three_le_length_forbidden {word : List Char} (h : Utf8.encode word ∈ forbiddenWords) :
    3 ≤ word.length := by
  rcases mem_forbiddenWords.1 h with h | h | h
  · rw [Utf8.encode_injective h]
    decide
  · rw [Utf8.encode_injective h]
    decide
  · rw [Utf8.encode_injective h]
    decide

theorem onePassCount_le (isCyrillic : Bool) (u : List Char) :
    4 * onePassCount icu isCyrillic u ≤ u.length + 1 := by
  refine countP_runs_le ?_ u
  intro run hrun
  have hforbidden : Utf8.encode (yielded isCyrillic run) ∈ forbiddenWords := of_decide_eq_true hrun
  exact Nat.le_trans (three_le_length_forbidden hforbidden) (length_yielded_le isCyrillic run)

theorem forbiddenWordCount_tokens (ht : icu.Transcodes) (hc : icu.Classifies) (textN : StdString) :
    forbiddenWordCount (textProcessingTokens icu textN) =
      onePassCount icu (orientation icu (normalizedText icu textN)) (normalizedText icu textN) := by
  rw [textProcessingTokens_eq ht, tokensUnder_eq_onePassTokens hc, ← forbiddenCount_onePassTokens,
    forbiddenWordCount, List.countP_map]
  rfl

/-- Four code points of the normalised text for each forbidden token, less one at the end. -/
theorem flagged_length (ht : icu.Transcodes) (hc : icu.Classifies) (textN : StdString) :
    let u := icu.decodeUTF8 (textNormalization icu textN)
    4 * forbiddenWordCount (textProcessingTokens icu textN) ≤ u.length + 1 ∧
      (textProcessing icu textN = true → 15 ≤ u.length) := by
  intro u
  have hu : u = normalizedText icu textN := decode_textNormalization ht textN
  have hcount : 4 * forbiddenWordCount (textProcessingTokens icu textN) ≤ u.length + 1 := by
    rw [forbiddenWordCount_tokens ht hc, hu]
    exact onePassCount_le _ _
  refine ⟨hcount, ?_⟩
  intro hflagged
  have hover : forbiddenWordThreshold < forbiddenWordCount (textProcessingTokens icu textN) :=
    of_decide_eq_true hflagged
  have hfour : 4 ≤ forbiddenWordCount (textProcessingTokens icu textN) := hover
  omega

/-- Four words of three letters reach the bound. -/
theorem flagged_length_sample :
    let icu := SampleIcu.sampleIcu
    let textN := Utf8.encode
      ['g', 'a', 'y', ' ', 'g', 'a', 'y', ' ', 'g', 'a', 'y', ' ', 'g', 'a', 'y']
    15 ≤ (icu.decodeUTF8 (textNormalization icu textN)).length ∧
      (icu.decodeUTF8 (textNormalization icu textN)).length = 15 :=
  ⟨(flagged_length SampleIcu.sample_transcodes SampleIcu.sample_classifies _).2 (by decide +kernel),
    by decide +kernel⟩

/-! ## What a token cannot contain -/

theorem keys_rewritten : ∀ isCyrillic, ∀ entry ∈ Orientation.tables isCyrillic,
    leetChar isCyrillic entry.1 ≠ entry.1 := by
  decide +kernel

/-- A code point that the map leaves is no key of its tables. -/
theorem ne_key_of_fixed {isCyrillic : Bool} {c : Char} (h : leetChar isCyrillic c = c) :
    ∀ entry ∈ Orientation.tables isCyrillic, entry.1 ≠ c := by
  rintro entry hentry rfl
  exact keys_rewritten isCyrillic entry hentry h

theorem mem_token {isCyrillic : Bool} {u word : List Char} (h : word ∈ tokensUnder icu isCyrillic u)
    {c : Char} (hc : c ∈ word) : c ∈ leetStage isCyrillic (collapsed icu u) := by
  have hflatten : c ∈ (tokensUnder icu isCyrillic u).flatten := List.mem_flatten_of_mem h hc
  rw [tokensUnder, tokens, flatten_runs] at hflatten
  exact List.mem_of_mem_filter hflatten

/-- No token that is checked contains a key of the tables of its orientation. -/
theorem tokens_without_keys (h : icu.Transcodes) (textN : StdString) :
    ∀ token ∈ textProcessingTokens icu textN, ∀ c ∈ icu.decodeUTF8 token,
      ∀ entry ∈ Orientation.tables (isPrimarilyCyrillic icu (collapsedText icu textN)),
        entry.1 ≠ c := by
  intro token htoken c hc
  rw [textProcessingTokens_eq h] at htoken
  rcases List.mem_map.1 htoken with ⟨word, hword, rfl⟩
  rw [h.decode_encode] at hc
  rcases List.mem_map.1 (mem_token hword hc) with ⟨d, _, rfl⟩
  rw [orientation_eq h]
  -- the code point has been written by the map, which does not rewrite it again
  exact ne_key_of_fixed (Orientation.leetChar_idem _ d)

/-- The Latin word in a text that is mostly Cyrillic. -/
theorem tokens_without_keys_sample :
    let textN := Utf8.encode ['g', 'a', 'y', ' ', 'п', 'р', 'и', 'в', 'е', 'т']
    Utf8.encode wordGay ∉ textProcessingTokens SampleIcu.sampleIcu textN := by
  intro textN htoken
  refine tokens_without_keys SampleIcu.sample_transcodes textN _ htoken 'a' ?_ ('a', 'а') ?_ rfl
  · rw [SampleIcu.sample_transcodes.decode_encode]
    decide
  · decide +kernel

/-! ## Padding -/

/-- A lower-case letter of either alphabet that neither map rewrites. -/
def padLetter : Bool → Char
  | true => 'ж'
  | false => 'z'

/-- The letter `n` times, as words of its own. -/
def padding (isCyrillic : Bool) (n : Nat) : StdString :=
  join (List.replicate n (Utf8.encode [padLetter isCyrillic]))

/-- NFC and `toLower` leave a single lower-case letter. -/
structure KeepsPadding (icu : Icu) : Prop where
  normalize_letter : ∀ isCyrillic, (icu.normalize [padLetter isCyrillic]).1 = [padLetter isCyrillic]
  toLower_letter : ∀ isCyrillic, icu.toLower [padLetter isCyrillic] = [padLetter isCyrillic]

/-- The letters of the other alphabet, which the padding has to outnumber. -/
def lettersAgainst (icu : Icu) (isCyrillic : Bool) (textN : StdString) : Nat :=
  if isCyrillic then
    latinCount icu (normalizedText icu textN)
  else
    cyrillicCount icu (normalizedText icu textN)

section Letter

variable (h : icu.Classifies) (isCyrillic : Bool)

include h

theorem padLetter_not_blank : icu.isWhitespace (padLetter isCyrillic) = false := by
  cases isCyrillic with
  | true => exact h.whitespace_cyrillic 0x436 (by decide) (by decide)
  | false => exact (h.whitespace_ascii 0x7A (by decide)).trans (by decide)

theorem padLetter_lettered : lettered icu isCyrillic (padLetter isCyrillic) = true := by
  have hkept : leetChar isCyrillic (padLetter isCyrillic) = padLetter isCyrillic := by
    cases isCyrillic <;> decide +kernel
  rw [lettered, hkept]
  cases isCyrillic with
  | true => exact h.alnum_cyrillic 0x436 (by decide) (by decide)
  | false => exact (h.alnum_ascii 0x7A (by decide)).trans (by decide)

theorem collapsed_padLetter : collapsed icu [padLetter isCyrillic] = [padLetter isCyrillic] := by
  have hvisible : visibleStage [padLetter isCyrillic] = [padLetter isCyrillic] := by
    cases isCyrillic <;> decide +kernel
  have hblank : ∀ c ∈ [padLetter isCyrillic], icu.isWhitespace c = false := by
    intro c hc
    rw [List.mem_singleton.1 hc]
    exact padLetter_not_blank h isCyrillic
  rw [collapsed, hvisible, whitespaceStage, squeeze_of_none hblank]
  cases isCyrillic <;> decide +kernel

/-- The letter counts for its own alphabet, and not for the other one. -/
theorem counts_padLetter :
    cyrillicCount icu [padLetter isCyrillic] = (if isCyrillic then 1 else 0) ∧
      latinCount icu [padLetter isCyrillic] = (if isCyrillic then 0 else 1) := by
  rw [cyrillicCount, latinCount, collapsed_padLetter h]
  cases isCyrillic <;> decide +kernel

/-- As a word it is a token, and not a forbidden one. -/
theorem flaggedCount_padLetter : flaggedCount icu isCyrillic [padLetter isCyrillic] = 0 := by
  have htoken : tokensUnder icu isCyrillic [padLetter isCyrillic] =
      [[padLetter isCyrillic].map (leetChar isCyrillic)] := by
    refine tokensUnder_word h (Stretch.refl _) (by simp) ?_ ?_ (by simp)
    · intro c hc
      rw [List.mem_singleton.1 hc]
      exact padLetter_lettered h isCyrillic
    · intro c hc
      rw [List.mem_singleton.1 hc]
      cases isCyrillic <;> decide +kernel
  rw [flaggedCount, htoken]
  cases isCyrillic <;> decide +kernel

end Letter

section Padding

variable (h : JoinsWords icu) (hpad : KeepsPadding icu) (isCyrillic : Bool) {n : Nat}

include h hpad

theorem lowered_padLetter :
    lowered icu (Utf8.encode [padLetter isCyrillic]) = [padLetter isCyrillic] := by
  rw [lowered, h.transcodes.decode_encode, hpad.normalize_letter, hpad.toLower_letter]

/-- A word measure of the padding is that of the letter, `n` times. -/
theorem measure_padding (hF : WordMeasure icu F) (hn : n ≠ 0) :
    F (normalizedText icu (padding isCyrillic n)) = n * F [padLetter isCyrillic] := by
  have hne : List.replicate n (Utf8.encode [padLetter isCyrillic]) ≠ [] := by
    simpa using hn
  rw [padding, hF.join h hne, List.map_replicate, List.sum_replicate_nat,
    lowered_padLetter h hpad]

/-- The padding turns the orientation of the whole. -/
theorem orientation_padded {textN : StdString} (hn : lettersAgainst icu isCyrillic textN < n) :
    orientation icu (normalizedText icu (textN ++ 0x20 :: padding isCyrillic n)) = isCyrillic := by
  have hn0 : n ≠ 0 := Nat.ne_of_gt (Nat.lt_of_le_of_lt (Nat.zero_le _) hn)
  have hcyrillic := wordMeasure_cyrillicCount h.classifies
  have hlatin := wordMeasure_latinCount h.classifies
  rw [orientation_eq_counts, hcyrillic.append h, hlatin.append h,
    measure_padding h hpad isCyrillic hcyrillic hn0, measure_padding h hpad isCyrillic hlatin hn0,
    (counts_padLetter h.classifies isCyrillic).1, (counts_padLetter h.classifies isCyrillic).2]
  cases isCyrillic with
  | true =>
      have hn' : latinCount icu (normalizedText icu textN) < n := hn
      simp only [if_true, decide_eq_true_eq]
      omega
  | false =>
      have hn' : cyrillicCount icu (normalizedText icu textN) < n := hn
      simp only [Bool.false_eq_true, if_false, decide_eq_false_iff_not]
      omega

/-- Enough letters of one alphabet fix the orientation the whole text is judged by, and add no
forbidden token. -/
theorem textProcessing_padded {textN : StdString} (hn : lettersAgainst icu isCyrillic textN < n) :
    textProcessing icu (textN ++ 0x20 :: padding isCyrillic n) = true ↔
      forbiddenWordThreshold < forbiddenUnder icu isCyrillic textN := by
  have hn0 : n ≠ 0 := Nat.ne_of_gt (Nat.lt_of_le_of_lt (Nat.zero_le _) hn)
  have hflagged := wordMeasure_flaggedCount h.classifies isCyrillic
  rw [textProcessing_eq_verdict h.transcodes, verdict_eq_flaggedCount,
    orientation_padded h hpad isCyrillic hn, hflagged.append h,
    measure_padding h hpad isCyrillic hflagged hn0, flaggedCount_padLetter h.classifies,
    Nat.mul_zero, Nat.add_zero, decide_eq_true_iff, forbiddenUnder_eq h.transcodes]

end Padding

/-! ## Texts that can be cleared -/

theorem forbiddenUnder_append (h : JoinsWords icu) (isCyrillic : Bool) (t s : StdString) :
    forbiddenUnder icu isCyrillic (t ++ 0x20 :: s) =
      forbiddenUnder icu isCyrillic t + forbiddenUnder icu isCyrillic s := by
  simp only [forbiddenUnder_eq h.transcodes]
  exact (wordMeasure_flaggedCount h.classifies isCyrillic).append h t s

/-- Some appended text clears `t` exactly when `t` passes under one of the two orientations. -/
theorem cleared_iff (h : JoinsWords icu) (hpad : KeepsPadding icu) (t : StdString) :
    (∃ s, textProcessing icu (t ++ 0x20 :: s) = false) ↔
      ∃ isCyrillic, forbiddenUnder icu isCyrillic t ≤ forbiddenWordThreshold := by
  constructor
  · rintro ⟨s, hcleared⟩
    -- the whole passes under its own orientation, and `t` has no more tokens than the whole
    refine ⟨isPrimarilyCyrillic icu (collapsedText icu (t ++ 0x20 :: s)), ?_⟩
    have hpasses : ¬ textProcessing icu (t ++ 0x20 :: s) = true := by
      simp [hcleared]
    rw [textProcessing_iff_forbiddenUnder h.transcodes, forbiddenUnder_append h] at hpasses
    omega
  · rintro ⟨isCyrillic, hpasses⟩
    refine ⟨padding isCyrillic (lettersAgainst icu isCyrillic t + 1), ?_⟩
    rw [← Bool.not_eq_true, textProcessing_padded h hpad isCyrillic (Nat.lt_succ_self _)]
    exact Nat.not_lt.2 hpasses

theorem sample_keepsPadding : KeepsPadding SampleIcu.sampleIcu where
  normalize_letter := fun _ => rfl
  toLower_letter := by
    intro isCyrillic
    cases isCyrillic <;> decide +kernel

/-- Four Latin words that pass under the Cyrillic orientation. -/
theorem cleared_iff_sample :
    ∃ s, textProcessing SampleIcu.sampleIcu
      (Utf8.encode ['g', 'a', 'y', ' ', 'g', 'a', 'y', ' ', 'g', 'a', 'y', ' ', 'g', 'a', 'y'] ++
        0x20 :: s) = false :=
  (cleared_iff sample_joinsWords sample_keepsPadding _).2 ⟨true, by decide +kernel⟩

end Evasion
end ModerationService
