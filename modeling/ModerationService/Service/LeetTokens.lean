import ModerationService.Service.Orientation

/-!
# LeetTokens — what the leetspeak map does to tokens

The map rewrites code points one by one, but a token is cut where code points are not alphanumeric,
and the map makes letters of symbols and may send two neighbours to the same letter.  So it can glue
a symbol to a word, and it can write a letter twice that was spelled in two ways.

* `leet_keeps_intact`: it keeps every token that it neither rewrites nor glues to anything;
* `repeats_iff`: it writes a repeat into a token exactly where two neighbours have the same image.
-/

namespace ModerationService
namespace LeetTokens

open Library Library.Runs Library.Collapse Icu CodePoints TextProcessingConstants
open LeetspeakNormalization WordChecker TextProcessor LoopRefinement OnePass

variable {icu : Icu}

/-! ## Tokens the map leaves alone -/

/-- A code point that is alphanumeric before or after the map. -/
def wordLike (icu : Icu) (isCyrillic : Bool) (c : Char) : Bool :=
  icu.isalnum c || lettered icu isCyrillic c

/-- The map leaves the code point. -/
def fixed (isCyrillic : Bool) (c : Char) : Bool :=
  decide (leetChar isCyrillic c = c)

/-- The tokens that the map does not rewrite, and whose neighbours are not alphanumeric after the map
either. -/
def intactTokens (icu : Icu) (isCyrillic : Bool) (cs : List Char) : List (List Char) :=
  (runs (wordLike icu isCyrillic) cs).filter (fun word => word.all (fixed isCyrillic))

theorem map_eq_self {α : Type} {f : α → α} {xs : List α} (h : ∀ x ∈ xs, f x = x) :
    xs.map f = xs := by
  have hid : xs.map f = xs.map id := List.map_congr_left h
  simpa using hid

section Intact

variable (icu) (isCyrillic : Bool)

theorem isalnum_of_fixed {c : Char} (h : wordLike icu isCyrillic c = true)
    (hfixed : fixed isCyrillic c = true) : icu.isalnum c = true := by
  have hsame : leetChar isCyrillic c = c := of_decide_eq_true hfixed
  simpa [wordLike, lettered, hsame] using h

theorem lettered_of_fixed {c : Char} (h : wordLike icu isCyrillic c = true)
    (hfixed : fixed isCyrillic c = true) : lettered icu isCyrillic c = true := by
  have hsame : leetChar isCyrillic c = c := of_decide_eq_true hfixed
  simpa [wordLike, lettered, hsame] using h

/-- Where an intact token stands: its code points are alphanumeric and stay, and its neighbours are
not alphanumeric, before the map or after it. -/
theorem mem_intactTokens_iff {word cs : List Char} :
    word ∈ intactTokens icu isCyrillic cs ↔
      word ≠ [] ∧ (∀ c ∈ word, icu.isalnum c = true ∧ leetChar isCyrillic c = c) ∧
      ∃ pre post, cs = pre ++ word ++ post ∧
        (∀ c ∈ pre.getLast?, wordLike icu isCyrillic c = false) ∧
        (∀ c ∈ post.head?, wordLike icu isCyrillic c = false) := by
  simp only [intactTokens, List.mem_filter, mem_runs_iff, List.all_eq_true]
  constructor
  · rintro ⟨⟨hne, hword, hoccurs⟩, hfixed⟩
    refine ⟨hne, fun c hc => ⟨?_, of_decide_eq_true (hfixed c hc)⟩, hoccurs⟩
    exact isalnum_of_fixed icu isCyrillic (hword c hc) (hfixed c hc)
  · rintro ⟨hne, hword, hoccurs⟩
    refine ⟨⟨hne, fun c hc => ?_, hoccurs⟩, fun c hc => decide_eq_true (hword c hc).2⟩
    simp [wordLike, (hword c hc).1]

theorem intactTokens_sublist_tokens (cs : List Char) :
    (intactTokens icu isCyrillic cs).Sublist (tokens icu cs) := by
  refine sublist_runs (fun c => isalnum_of_fixed icu isCyrillic) ?_ cs
  intro c hc
  simp [wordLike, hc]

theorem intactTokens_sublist_leetStage (cs : List Char) :
    (intactTokens icu isCyrillic cs).Sublist (tokens icu (leetStage isCyrillic cs)) := by
  have hruns : (intactTokens icu isCyrillic cs).Sublist (runs (lettered icu isCyrillic) cs) := by
    refine sublist_runs (fun c => lettered_of_fixed icu isCyrillic) ?_ cs
    intro c hc
    simp [wordLike, hc]
  -- the map leaves an intact token as it is
  have hsame : (intactTokens icu isCyrillic cs).map (List.map (leetChar isCyrillic)) =
      intactTokens icu isCyrillic cs := by
    refine map_eq_self (fun word hword => map_eq_self (fun c hc => ?_))
    exact (((mem_intactTokens_iff icu isCyrillic).1 hword).2.1 c hc).2
  have hmapped := hruns.map (List.map (leetChar isCyrillic))
  rw [hsame] at hmapped
  rw [tokens, leetStage, runs_map]
  exact hmapped

end Intact

/-! ## Forbidden tokens -/

/-- The leetspeak stage keeps the intact tokens of its input, so it hides no forbidden one among
them. -/
theorem leet_keeps_intact (h : icu.Transcodes) (textN : StdString) :
    let isCyrillic := isPrimarilyCyrillic icu textN
    let intact := (intactTokens icu isCyrillic (icu.decodeUTF8 textN)).map Utf8.encode
    let leeted := tokenize icu (leetspeakNormalization icu textN isCyrillic)
    intact.Sublist (tokenize icu textN) ∧ intact.Sublist leeted ∧
      forbiddenWordCount intact ≤ forbiddenWordCount leeted := by
  intro isCyrillic intact leeted
  have hkept : intact.Sublist (tokenize icu textN) := by
    rw [tokenize_eq]
    exact (intactTokens_sublist_tokens icu isCyrillic _).map Utf8.encode
  have hleeted : intact.Sublist leeted := by
    have hdecode : icu.decodeUTF8 (leetspeakNormalization icu textN isCyrillic) =
        leetStage isCyrillic (icu.decodeUTF8 textN) := by
      rw [leetspeakNormalization_eq, h.decode_encode]
    show intact.Sublist (tokenize icu (leetspeakNormalization icu textN isCyrillic))
    rw [tokenize_eq, hdecode]
    exact (intactTokens_sublist_leetStage icu isCyrillic _).map Utf8.encode
  exact ⟨hkept, hleeted, hleeted.countP_le⟩

/-- A forbidden word beside a symbol that stays, and one beside a digit that becomes a letter. -/
theorem leet_keeps_intact_sample :
    let icu := SampleIcu.sampleIcu
    let textN := Utf8.encode ['?', 'g', 'a', 'y', ' ', '4', 'g', 'a', 'y']
    intactTokens icu (isPrimarilyCyrillic icu textN) (icu.decodeUTF8 textN) = [['g', 'a', 'y']] ∧
      1 ≤ forbiddenWordCount
        (tokenize icu (leetspeakNormalization icu textN (isPrimarilyCyrillic icu textN))) := by
  have h := leet_keeps_intact SampleIcu.sample_transcodes
    (Utf8.encode ['?', 'g', 'a', 'y', ' ', '4', 'g', 'a', 'y'])
  have hintact : intactTokens SampleIcu.sampleIcu
      (isPrimarilyCyrillic SampleIcu.sampleIcu
        (Utf8.encode ['?', 'g', 'a', 'y', ' ', '4', 'g', 'a', 'y']))
      (SampleIcu.sampleIcu.decodeUTF8
        (Utf8.encode ['?', 'g', 'a', 'y', ' ', '4', 'g', 'a', 'y'])) = [['g', 'a', 'y']] := by
    decide +kernel
  refine ⟨hintact, ?_⟩
  have hcount := h.2.2
  rw [hintact] at hcount
  exact hcount

/-- The exclamation mark becomes a letter of the word before it, and in a Cyrillic text the `a` and
the `y` become Cyrillic letters. -/
theorem leet_hides_gay :
    let icu := SampleIcu.sampleIcu
    let hidden (cs : List Char) : Prop :=
      let textN := collapsedText icu (Utf8.encode cs)
      let isCyrillic := isPrimarilyCyrillic icu textN
      forbiddenWordCount (tokenize icu (leetspeakNormalization icu textN isCyrillic)) <
        forbiddenWordCount (tokenize icu textN)
    hidden ['g', 'a', 'y', '!'] ∧ hidden ['g', 'a', 'y', ' ', 'ш', 'у', 'т', 'и', 'т'] := by
  intro icu hidden
  constructor
  · show _ < _
    decide +kernel
  · show _ < _
    decide +kernel

/-! ## Repeats -/

/-- The tokens that `TextProcessing` checks, as runs of the collapsed text under the map. -/
theorem textProcessingTokens_eq_runs (h : icu.Transcodes) (textN : StdString) :
    textProcessingTokens icu textN =
      ((runs (lettered icu (isPrimarilyCyrillic icu (collapsedText icu textN)))
        (icu.decodeUTF8 (collapsedText icu textN))).map
          (List.map (leetChar (isPrimarilyCyrillic icu (collapsedText icu textN))))).map
            Utf8.encode := by
  have hletters : (fun c => icu.isalnum
      (leetChar (isPrimarilyCyrillic icu (collapsedText icu textN)) c)) =
        lettered icu (isPrimarilyCyrillic icu (collapsedText icu textN)) := rfl
  simp only [textProcessingTokens, tokenize_eq, leetspeakNormalization_eq, h.decode_encode, tokens,
    leetStage, runs_map, hletters]

/-- The collapsed text has no two adjacent equal code points, and a checked token has some exactly
where two neighbours of the collapsed text have the same alphanumeric image. -/
theorem repeats_iff (h : icu.Transcodes) (textN : StdString) :
    let cs := icu.decodeUTF8 (collapsedText icu textN)
    let isCyrillic := isPrimarilyCyrillic icu (collapsedText icu textN)
    cs.IsChain (· ≠ ·) ∧
    ((∀ token ∈ textProcessingTokens icu textN, (icu.decodeUTF8 token).IsChain (· ≠ ·)) ↔
      cs.IsChain (fun c d => icu.isalnum (leetChar isCyrillic c) = true →
        icu.isalnum (leetChar isCyrillic d) = true →
          leetChar isCyrillic c ≠ leetChar isCyrillic d)) := by
  intro cs isCyrillic
  have hcs : cs = collapsed icu (normalizedText icu textN) := by
    show icu.decodeUTF8 (collapsedText icu textN) = _
    rw [collapsedText_eq h, h.decode_encode]
  refine ⟨?_, ?_⟩
  · rw [hcs]
    exact isChain_dropRepeats null _
  · rw [textProcessingTokens_eq_runs h]
    simp only [List.mem_map, forall_exists_index, and_imp, forall_apply_eq_imp_iff₂,
      h.decode_encode, List.isChain_map]
    exact isChain_runs_iff cs

/-- An `a` spelled with a symbol first and as the letter then. -/
theorem repeats_iff_sample :
    let icu := SampleIcu.sampleIcu
    let textN := Utf8.encode ['g', 'g', '@', '@', 'y']
    ∀ token ∈ textProcessingTokens icu textN, (icu.decodeUTF8 token).IsChain (· ≠ ·) := by
  refine (repeats_iff SampleIcu.sample_transcodes _).2.2 ?_
  decide +kernel

/-- The symbol becomes the letter that stands after it. -/
theorem repeats_written :
    let icu := SampleIcu.sampleIcu
    let textN := Utf8.encode ['g', '@', 'a', 'y']
    ¬ ∀ token ∈ textProcessingTokens icu textN, (icu.decodeUTF8 token).IsChain (· ≠ ·) := by
  intro icu textN hchain
  have htokens : textProcessingTokens icu textN = [Utf8.encode ['g', 'a', 'a', 'y']] := by
    decide +kernel
  have hgaay := hchain (Utf8.encode ['g', 'a', 'a', 'y']) (by simp [htokens])
  rw [SampleIcu.sample_transcodes.decode_encode] at hgaay
  simp at hgaay

end LeetTokens
end ModerationService
