import ModerationService.Service.OnePass

/-!
# Locality — what the verdict counts is counted word by word

Three numbers decide the verdict on a normalised text: its Cyrillic letters, its Latin letters, and
its forbidden tokens under either orientation.  Each is a `WordMeasure`:

* it does not see invisible code points, and
* at a visible whitespace code point it splits into a sum.

Only the comparison of the first two numbers looks at the whole text.  Hence the verdict depends on
the bag of words alone (`textProcessing_perm`), and appended text can clear a flagged one only
through the orientation (`textProcessing_append`).
-/

namespace ModerationService
namespace Locality

open Library Library.Runs Library.Collapse Icu CodePoints TextProcessingConstants
open TextNormalization LeetspeakNormalization WordChecker TextProcessor LoopRefinement OnePass

variable {icu : Icu} {F : List Char → Nat}

/-! ## Word measures -/

/-- A number computed from a text word by word. -/
structure WordMeasure (icu : Icu) (F : List Char → Nat) : Prop where
  empty : F [] = 0
  hidden : ∀ u, F (visibleStage u) = F u
  blank : ∀ a c b, icu.isWhitespace c = true → visible c = true → F (a ++ c :: b) = F a + F b

theorem visibleStage_append (a b : List Char) :
    visibleStage (a ++ b) = visibleStage a ++ visibleStage b := by
  simp [visibleStage]

theorem visibleStage_idem (u : List Char) : visibleStage (visibleStage u) = visibleStage u := by
  simp [visibleStage]

/-- A sum over the runs of the visible text is a word measure. -/
theorem wordMeasure_runs {p : Char → Bool} (hp : ∀ c, icu.isWhitespace c = true → p c = false)
    (weight : List Char → Nat) :
    WordMeasure icu (fun u => ((runs p (visibleStage u)).map weight).sum) where
  empty := by
    simp [visibleStage]
  hidden := by
    intro u
    simp only [visibleStage_idem]
  blank := by
    intro a c b hc hvisible
    have hcons : visibleStage (c :: b) = c :: visibleStage b := by
      simp [visibleStage, hvisible]
    simp only [visibleStage_append, hcons, runs_append_sep (hp c hc), List.map_append,
      List.sum_append]

section Rules

variable (hF : WordMeasure icu F)

include hF

theorem WordMeasure.blank_cons {c : Char} (hc : icu.isWhitespace c = true) (u : List Char) :
    F (c :: u) = F u := by
  cases hvisible : visible c with
  | true =>
      have h := hF.blank [] c u hc hvisible
      simpa [hF.empty] using h
  | false =>
      -- LINE and PARAGRAPH SEPARATOR are whitespace and invisible
      have hdrop : visibleStage (c :: u) = visibleStage u := by
        simp [visibleStage, hvisible]
      rw [← hF.hidden, hdrop, hF.hidden]

theorem WordMeasure.blank_concat {c : Char} (hc : icu.isWhitespace c = true) (u : List Char) :
    F (u ++ [c]) = F u := by
  cases hvisible : visible c with
  | true =>
      rw [hF.blank u c [] hc hvisible, hF.empty, Nat.add_zero]
  | false =>
      have hdrop : visibleStage (u ++ [c]) = visibleStage u := by
        simp [visibleStage, hvisible]
      rw [← hF.hidden, hdrop, hF.hidden]

/-- Trimming is invisible to a word measure. -/
theorem WordMeasure.trimmed (u : List Char) : F (icu.trimmed u) = F u := by
  -- from the left by induction on the text, from the right by induction from its end
  have hleft : ∀ u : List Char, F (u.dropWhile icu.isWhitespace) = F u := by
    intro u
    induction u with
    | nil =>
        rfl
    | cons c u ih =>
        cases hc : icu.isWhitespace c with
        | true =>
            rw [List.dropWhile_cons_of_pos hc, ih, hF.blank_cons hc]
        | false =>
            rw [List.dropWhile_cons_of_neg (by simp [hc])]
  have hright : ∀ u : List Char, F (u.rdropWhile icu.isWhitespace) = F u := by
    intro u
    induction u using List.reverseRecOn with
    | nil =>
        rfl
    | append_singleton u c ih =>
        cases hc : icu.isWhitespace c with
        | true =>
            rw [List.rdropWhile_concat_pos _ _ _ hc, ih, hF.blank_concat hc]
        | false =>
            rw [List.rdropWhile_concat_neg _ _ _ (by simp [hc])]
  rw [Icu.trimmed, hright, hleft]

/-- A run of blanks is invisible to a word measure. -/
theorem WordMeasure.blanks_append {blanks : List Char}
    (hblanks : ∀ c ∈ blanks, icu.isWhitespace c = true) (u : List Char) :
    F (blanks ++ u) = F u := by
  induction blanks with
  | nil =>
      rfl
  | cons c blanks ih =>
      have hrest : ∀ d ∈ blanks, icu.isWhitespace d = true :=
        fun d hd => hblanks d (List.mem_cons_of_mem c hd)
      rw [List.cons_append, hF.blank_cons (hblanks c (by simp)), ih hrest]

theorem WordMeasure.append_blanks {blanks : List Char}
    (hblanks : ∀ c ∈ blanks, icu.isWhitespace c = true) (u : List Char) :
    F (u ++ blanks) = F u := by
  induction blanks using List.reverseRecOn with
  | nil =>
      rw [List.append_nil]
  | append_singleton blanks c ih =>
      have hrest : ∀ d ∈ blanks, icu.isWhitespace d = true :=
        fun d hd => hblanks d (List.mem_append_left _ hd)
      rw [← List.append_assoc, hF.blank_concat (hblanks c (by simp)), ih hrest]

/-- A non-empty run of visible blanks separates. -/
theorem WordMeasure.gap {gap : List Char} (hne : gap ≠ [])
    (hgap : ∀ c ∈ gap, icu.isWhitespace c = true ∧ visible c = true) (a b : List Char) :
    F (a ++ gap ++ b) = F a + F b := by
  rcases List.exists_cons_of_ne_nil hne with ⟨c, rest, rfl⟩
  rcases hgap c (by simp) with ⟨hc, hvisible⟩
  have hrest : ∀ d ∈ rest, icu.isWhitespace d = true :=
    fun d hd => (hgap d (List.mem_cons_of_mem c hd)).1
  rw [List.append_assoc, List.cons_append, hF.blank a c _ hc hvisible, hF.blanks_append hrest]

theorem WordMeasure.space (h : icu.Classifies) (a b : List Char) :
    F (a ++ ' ' :: b) = F a + F b :=
  hF.blank a ' ' b h.whitespace_space (by decide)

/-- Over words joined by U+0020 a word measure is a sum. -/
theorem WordMeasure.intercalate (h : icu.Classifies) (words : List (List Char)) :
    F ([' '].intercalate words) = (words.map F).sum := by
  induction words with
  | nil =>
      exact hF.empty
  | cons w words ih =>
      cases words with
      | nil =>
          simp
      | cons w' words =>
          rw [List.intercalate_cons_cons, List.append_assoc, List.singleton_append, hF.space h, ih]
          simp

end Rules

/-! ## The three measures of the verdict -/

def cyrillicCount (icu : Icu) (u : List Char) : Nat :=
  (collapsed icu u).countP cyrillic

def latinCount (icu : Icu) (u : List Char) : Nat :=
  (collapsed icu u).countP latin

def flaggedCount (icu : Icu) (isCyrillic : Bool) (u : List Char) : Nat :=
  forbiddenCount (tokensUnder icu isCyrillic u)

theorem orientation_eq_counts (icu : Icu) (u : List Char) :
    orientation icu u = decide (latinCount icu u < cyrillicCount icu u) := rfl

theorem verdict_eq_flaggedCount (icu : Icu) (u : List Char) :
    verdict icu u =
      decide (forbiddenWordThreshold < flaggedCount icu (orientation icu u) u) := rfl

theorem cyrillic_whitespace (h : icu.Classifies) {c : Char} (hc : icu.isWhitespace c = true) :
    cyrillic c = false := by
  rw [← Bool.not_eq_true]
  intro hcyrillic
  rcases (cyrillicLetter_iff c.toNat).1 hcyrillic with ⟨hlow, hhigh⟩
  have hnot := h.whitespace_cyrillic c.toNat hlow hhigh
  have hc' : icu.uIsWhitespace c.toNat = true := hc
  rw [hc'] at hnot
  exact absurd hnot (by simp)

theorem latin_whitespace (h : icu.Classifies) {c : Char} (hc : icu.isWhitespace c = true) :
    latin c = false := by
  rw [← Bool.not_eq_true]
  intro hlatin
  have hletter := (latinLetter_iff c.toNat).1 hlatin
  have hout := whitespace_unprintable h hc
  omega

theorem wordMeasure_countP (h : icu.Classifies) {p : Char → Bool}
    (hp : ∀ c, icu.isWhitespace c = true → p c = false) (hnull : p null = false) :
    WordMeasure icu (fun u => (collapsed icu u).countP p) := by
  have heq : (fun u => (collapsed icu u).countP p) =
      fun u => ((runs p (visibleStage u)).map (fun run => (run.destutter (· ≠ ·)).length)).sum := by
    funext u
    rw [countP_eq_sum_length_runs, runs_collapsed hp (hp ' ' h.whitespace_space) hnull,
      List.map_map]
    rfl
  rw [heq]
  exact wordMeasure_runs hp _

theorem wordMeasure_cyrillicCount (h : icu.Classifies) : WordMeasure icu (cyrillicCount icu) :=
  wordMeasure_countP h (fun _ hc => cyrillic_whitespace h hc) (by decide)

theorem wordMeasure_latinCount (h : icu.Classifies) : WordMeasure icu (latinCount icu) :=
  wordMeasure_countP h (fun _ hc => latin_whitespace h hc) (by decide)

theorem wordMeasure_flaggedCount (h : icu.Classifies) (isCyrillic : Bool) :
    WordMeasure icu (flaggedCount icu isCyrillic) := by
  have heq : flaggedCount icu isCyrillic =
      fun u => ((runs (lettered icu isCyrillic) (visibleStage u)).map
        (fun run => forbiddenCount [(run.destutter (· ≠ ·)).map (leetChar isCyrillic)])).sum := by
    funext u
    rw [flaggedCount, tokensUnder_eq h]
    -- each run is a token of its own, so the count is a sum over the runs
    induction runs (lettered icu isCyrillic) (visibleStage u) with
    | nil =>
        rfl
    | cons run rest ih =>
        rw [List.map_cons, List.map_cons, List.sum_cons, ← ih]
        simp [forbiddenCount, List.countP_cons, Nat.add_comm]
  rw [heq]
  exact wordMeasure_runs (fun _ hc => lettered_whitespace h isCyrillic hc) _

/-! ## Texts joined by U+0020 -/

/-- Normalised, but not yet trimmed. -/
def lowered (icu : Icu) (textN : StdString) : List Char :=
  icu.toLower (icu.normalize (icu.decodeUTF8 textN)).1

/-- What the joining laws rely on of ICU. -/
structure JoinsWords (icu : Icu) : Prop where
  transcodes : icu.Transcodes
  decodes : icu.DecodesSpace
  classifies : icu.Classifies
  normalizes : icu.Normalizes
  distributes : icu.DistributesOverSpace

def join (words : List StdString) : StdString :=
  [0x20].intercalate words

theorem normalizedText_eq_trimmed (h : icu.Normalizes) (textN : StdString) :
    normalizedText icu textN = icu.trimmed (lowered icu textN) := by
  simp only [normalizedText, h.instance_ok, h.normalize_ok, lowered]
  rfl

theorem WordMeasure.normalizedText (h : icu.Normalizes) (hF : WordMeasure icu F)
    (textN : StdString) :
    F (CodePoints.normalizedText icu textN) = F (lowered icu textN) := by
  rw [normalizedText_eq_trimmed h, hF.trimmed]

/-- Texts that no word measure tells apart have the same verdict. -/
theorem textProcessing_congr (ht : icu.Transcodes) (hc : icu.Classifies) {textN textN' : StdString}
    (h : ∀ F, WordMeasure icu F →
      F (normalizedText icu textN) = F (normalizedText icu textN')) :
    textProcessing icu textN = textProcessing icu textN' := by
  have horientation : orientation icu (normalizedText icu textN) =
      orientation icu (normalizedText icu textN') := by
    rw [orientation_eq_counts, orientation_eq_counts, h _ (wordMeasure_cyrillicCount hc),
      h _ (wordMeasure_latinCount hc)]
  rw [textProcessing_eq_verdict ht, textProcessing_eq_verdict ht, verdict_eq_flaggedCount,
    verdict_eq_flaggedCount, horientation, h _ (wordMeasure_flaggedCount hc _)]

section Joining

variable (h : JoinsWords icu)

include h

theorem lowered_space (a b : StdString) :
    lowered icu (a ++ 0x20 :: b) = lowered icu a ++ ' ' :: lowered icu b := by
  simp only [lowered, h.decodes.decode_space, h.distributes.normalize_space,
    h.distributes.toLower_space]

theorem lowered_join {words : List StdString} (hne : words ≠ []) :
    lowered icu (join words) = [' '].intercalate (words.map (lowered icu)) := by
  unfold join
  induction words with
  | nil =>
      exact absurd rfl hne
  | cons w words ih =>
      cases words with
      | nil =>
          simp
      | cons w' words =>
          rw [List.intercalate_cons_cons, List.append_assoc, List.singleton_append,
            lowered_space h, ih (by simp)]
          simp only [List.map_cons, List.intercalate_cons_cons, List.append_assoc,
            List.singleton_append]

theorem WordMeasure.append (hF : WordMeasure icu F) (t s : StdString) :
    F (CodePoints.normalizedText icu (t ++ 0x20 :: s)) =
      F (CodePoints.normalizedText icu t) + F (CodePoints.normalizedText icu s) := by
  simp only [hF.normalizedText h.normalizes]
  rw [lowered_space h, hF.space h.classifies]

theorem WordMeasure.join (hF : WordMeasure icu F) {words : List StdString} (hne : words ≠ []) :
    F (CodePoints.normalizedText icu (join words)) =
      (words.map (fun w => F (lowered icu w))).sum := by
  rw [hF.normalizedText h.normalizes, lowered_join h hne, hF.intercalate h.classifies, List.map_map]
  rfl

theorem WordMeasure.perm (hF : WordMeasure icu F) {words words' : List StdString}
    (hperm : words.Perm words') :
    F (CodePoints.normalizedText icu (Locality.join words)) =
      F (CodePoints.normalizedText icu (Locality.join words')) := by
  by_cases hne : words = []
  · subst hne
    rw [hperm.nil_eq]
  · have hne' : words' ≠ [] := by
      rintro rfl
      exact hne hperm.eq_nil
    rw [hF.join h hne, hF.join h hne']
    exact (hperm.map _).sum_nat

end Joining

/-! ## The verdict on joined texts -/

/-- The forbidden tokens of a text when the orientation is chosen from outside. -/
def forbiddenUnder (icu : Icu) (isCyrillic : Bool) (textN : StdString) : Nat :=
  forbiddenWordCount (tokenize icu (leetspeakNormalization icu (collapsedText icu textN) isCyrillic))

theorem forbiddenUnder_eq (h : icu.Transcodes) (isCyrillic : Bool) (textN : StdString) :
    forbiddenUnder icu isCyrillic textN =
      flaggedCount icu isCyrillic (normalizedText icu textN) := by
  rw [forbiddenUnder, tokenize_eq, leetspeakNormalization_eq, collapsedText_eq h]
  simp only [h.decode_encode, forbiddenWordCount, List.countP_map]
  rfl

theorem textProcessing_iff_forbiddenUnder (h : icu.Transcodes) (textN : StdString) :
    textProcessing icu textN = true ↔
      forbiddenWordThreshold <
        forbiddenUnder icu (isPrimarilyCyrillic icu (collapsedText icu textN)) textN := by
  rw [textProcessing_eq_verdict h, verdict_eq_flaggedCount, decide_eq_true_iff,
    forbiddenUnder_eq h, orientation_eq h]

/-- The verdict depends only on the bag of words. -/
theorem textProcessing_perm (h : JoinsWords icu) {words words' : List StdString}
    (hperm : words.Perm words') :
    textProcessing icu (join words) = textProcessing icu (join words') :=
  textProcessing_congr h.transcodes h.classifies (fun _ hF => hF.perm h hperm)

theorem sample_joinsWords : JoinsWords SampleIcu.sampleIcu where
  transcodes := SampleIcu.sample_transcodes
  decodes := SampleIcu.sample_decodesSpace
  classifies := SampleIcu.sample_classifies
  normalizes := SampleIcu.sample_normalizes
  distributes := SampleIcu.sample_distributesOverSpace

/-- An invisible character, U+0000, an empty string and a symbol change places. -/
theorem textProcessing_perm_sample :
    textProcessing SampleIcu.sampleIcu
        (join [Utf8.encode ['g', '\u200B', 'a', 'y'], [], [0], Utf8.encode ['ш', '!']]) =
      textProcessing SampleIcu.sampleIcu
        (join [Utf8.encode ['ш', '!'], [0], [], Utf8.encode ['g', '\u200B', 'a', 'y']]) :=
  textProcessing_perm sample_joinsWords (List.reverse_perm _).symm

/-- Appending text adds forbidden tokens, but under the orientation of the whole text.  A flagged
text stays flagged when the appended one leaves that orientation as it is. -/
theorem textProcessing_append (h : JoinsWords icu) (t s : StdString) :
    let whole := t ++ 0x20 :: s
    let isCyrillic := isPrimarilyCyrillic icu (collapsedText icu whole)
    (textProcessing icu whole = true ↔
      forbiddenWordThreshold < forbiddenUnder icu isCyrillic t + forbiddenUnder icu isCyrillic s) ∧
    (textProcessing icu t = true →
      isCyrillic = isPrimarilyCyrillic icu (collapsedText icu t) →
      textProcessing icu whole = true) := by
  intro whole isCyrillic
  -- under a fixed orientation the forbidden tokens of the two parts add up
  have hsum : forbiddenUnder icu isCyrillic whole =
      forbiddenUnder icu isCyrillic t + forbiddenUnder icu isCyrillic s := by
    simp only [forbiddenUnder_eq h.transcodes]
    exact (wordMeasure_flaggedCount h.classifies isCyrillic).append h t s
  have hwhole := textProcessing_iff_forbiddenUnder h.transcodes whole
  refine ⟨?_, ?_⟩
  · rw [hwhole, hsum]
  · intro ht hsame
    have hcount := (textProcessing_iff_forbiddenUnder h.transcodes t).1 ht
    -- `t` is counted under the orientation of the whole text
    rw [← hsame] at hcount
    rw [hwhole, hsum]
    exact Nat.lt_of_lt_of_le hcount (Nat.le_add_right _ _)

/-- Appending a Latin word to a flagged Latin text. -/
theorem textProcessing_append_sample :
    textProcessing SampleIcu.sampleIcu
      (Utf8.encode ['g', 'a', 'y', ' ', 'g', 'a', 'y', ' ', 'g', 'a', 'y', ' ', 'g', 'a', 'y'] ++
        0x20 :: Utf8.encode ['o', 'k']) = true :=
  (textProcessing_append sample_joinsWords _ _).2 (by decide +kernel) (by decide +kernel)

/-- Appended Russian text turns the orientation, and the Latin words before it are no longer
found. -/
theorem textProcessing_append_cleared :
    JoinsWords SampleIcu.sampleIcu ∧
    textProcessing SampleIcu.sampleIcu
        (Utf8.encode ['g', 'a', 'y', ' ', 'g', 'a', 'y', ' ', 'g', 'a', 'y', ' ', 'g', 'a', 'y']) =
      true ∧
    textProcessing SampleIcu.sampleIcu
        (Utf8.encode ['g', 'a', 'y', ' ', 'g', 'a', 'y', ' ', 'g', 'a', 'y', ' ', 'g', 'a', 'y'] ++
          0x20 :: Utf8.encode ['п', 'р', 'и', 'в', 'е', 'т', ' ', 'п', 'р', 'и', 'в', 'е', 'т', ' ',
            'п', 'р', 'и', 'в', 'е', 'т']) =
      false :=
  ⟨sample_joinsWords, by decide +kernel, by decide +kernel⟩

end Locality
end ModerationService
