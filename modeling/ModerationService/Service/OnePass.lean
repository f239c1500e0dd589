import ModerationService.Service.LoopRefinement

/-!
# OnePass — the staged pipeline as one pass over the normalised text

The five stages after `TextNormalization` delete, merge and rewrite code points.  Their composition
is a single cut of the normalised text:

* a code point is *kept* when it is invisible or its image under the leetspeak map is alphanumeric;
* every maximal run of kept code points yields one token (`yielded`), unless nothing visible is in
  it.

The proof moves `runs` backwards through the stages, one rule of `Library.Runs` and
`Library.Collapse` for each stage.
-/

namespace ModerationService
namespace OnePass

open Library Library.Runs Library.Collapse Icu CodePoints TextProcessingConstants
open TextNormalization LeetspeakNormalization WordChecker TextProcessor LoopRefinement

variable {icu : Icu}

/-! ## The leetspeak map only moves printable ASCII -/

theorem keys_printable : ∀ entry ∈ leetMapLatin ++ leetMapCyrillic ++ homoglyphMap,
    0x21 ≤ entry.1.toNat ∧ entry.1.toNat ≤ 0x7E := by
  decide

theorem lookup_eq_none {map : CharMap} {c : Char} (h : ∀ entry ∈ map, entry.1 ≠ c) :
    lookup map c = none := by
  have hfind : map.find? (fun entry => entry.1 == c) = none := by
    rw [List.find?_eq_none]
    intro entry hentry
    simpa using h entry hentry
  rw [lookup, hfind, Option.map_none]

theorem leetChar_of_unprintable {c : Char} (h : c.toNat < 0x21 ∨ 0x7E < c.toNat)
    (isCyrillic : Bool) : leetChar isCyrillic c = c := by
  have hnone : ∀ map : CharMap, map ⊆ leetMapLatin ++ leetMapCyrillic ++ homoglyphMap →
      lookup map c = none := by
    intro map hmap
    apply lookup_eq_none
    intro entry hentry heq
    have hkey := keys_printable entry (hmap hentry)
    rw [heq] at hkey
    omega
  have hlatin := hnone leetMapLatin (by simp)
  have hcyrillic := hnone leetMapCyrillic (by simp)
  have hhomoglyph := hnone homoglyphMap (by simp)
  cases isCyrillic with
  | false =>
      simp [leetChar, hlatin]
  | true =>
      simp [leetChar, hcyrillic, hhomoglyph]

theorem whitespace_unprintable (h : icu.Classifies) {c : Char} (hc : icu.isWhitespace c = true) :
    c.toNat < 0x21 ∨ 0x7E < c.toNat := by
  by_contra hprintable
  -- within ASCII, whitespace is a control character or U+0020
  have hascii := h.whitespace_ascii c.toNat (by omega)
  have hc' : icu.uIsWhitespace c.toNat = true := hc
  rw [hc', eq_comm, decide_eq_true_iff] at hascii
  omega

/-! ## Kept code points -/

/-- A code point that survives into a token, once its image is taken. -/
def lettered (icu : Icu) (isCyrillic : Bool) (c : Char) : Bool :=
  icu.isalnum (leetChar isCyrillic c)

def kept (icu : Icu) (isCyrillic : Bool) (c : Char) : Bool :=
  invisible c.toNat || lettered icu isCyrillic c

theorem lettered_whitespace (h : icu.Classifies) (isCyrillic : Bool) {c : Char}
    (hc : icu.isWhitespace c = true) : lettered icu isCyrillic c = false := by
  rw [lettered, leetChar_of_unprintable (whitespace_unprintable h hc)]
  exact h.alnum_whitespace _ hc

theorem lettered_space (h : icu.Classifies) (isCyrillic : Bool) :
    lettered icu isCyrillic ' ' = false :=
  lettered_whitespace h isCyrillic h.whitespace_space

theorem lettered_null (h : icu.Classifies) (isCyrillic : Bool) :
    lettered icu isCyrillic null = false := by
  rw [lettered, leetChar_of_unprintable (Or.inl (by decide))]
  exact h.alnum_null

/-! ## The one-pass specification -/

/-- The token of a run: drop what is invisible, collapse repeats, apply the map. -/
def yielded (isCyrillic : Bool) (run : List Char) : List Char :=
  ((run.filter visible).destutter (· ≠ ·)).map (leetChar isCyrillic)

def onePassTokens (icu : Icu) (isCyrillic : Bool) (u : List Char) : List (List Char) :=
  ((runs (kept icu isCyrillic) u).map (yielded isCyrillic)).filter (fun word => !word.isEmpty)

/-- How many runs yield a forbidden word. -/
def onePassCount (icu : Icu) (isCyrillic : Bool) (u : List Char) : Nat :=
  (runs (kept icu isCyrillic) u).countP
    (fun run => decide (Utf8.encode (yielded isCyrillic run) ∈ forbiddenWords))

theorem kept_eq (icu : Icu) (isCyrillic : Bool) :
    (fun c => !visible c || lettered icu isCyrillic c) = kept icu isCyrillic := by
  funext c
  simp [visible, kept]

theorem isEmpty_yielded (isCyrillic : Bool) (run : List Char) :
    (yielded isCyrillic run).isEmpty = (run.filter visible).isEmpty := by
  rw [Bool.eq_iff_iff]
  simp only [yielded, List.isEmpty_iff, List.map_eq_nil_iff, List.destutter_eq_nil]

/-- Collapsing cuts the text where the visible text is cut, and collapses every run on its own: for
any predicate that blanks and the sentinel do not satisfy. -/
theorem runs_collapsed {p : Char → Bool} (hblank : ∀ c, icu.isWhitespace c = true → p c = false)
    (hspace : p ' ' = false) (hnull : p null = false) (u : List Char) :
    runs p (collapsed icu u) = (runs p (visibleStage u)).map (List.destutter (· ≠ ·)) := by
  calc
    runs p (collapsed icu u)
        = (runs p (whitespaceStage icu (visibleStage u))).map (List.destutter (· ≠ ·)) :=
          runs_dropRepeats hnull _
    _ = (runs p (visibleStage u)).map (List.destutter (· ≠ ·)) := by
          rw [whitespaceStage, runs_squeeze hblank hspace]

/-- The tokens come from the runs of letters of the visible text. -/
theorem tokensUnder_eq (h : icu.Classifies) (isCyrillic : Bool) (u : List Char) :
    tokensUnder icu isCyrillic u =
      (runs (lettered icu isCyrillic) (visibleStage u)).map
        (fun run => (run.destutter (· ≠ ·)).map (leetChar isCyrillic)) := by
  have hblank : ∀ c, icu.isWhitespace c = true → lettered icu isCyrillic c = false :=
    fun _ hc => lettered_whitespace h isCyrillic hc
  have hletters : (fun c => icu.isalnum (leetChar isCyrillic c)) = lettered icu isCyrillic := rfl
  rw [tokensUnder, tokens, leetStage, runs_map, hletters,
    runs_collapsed hblank (lettered_space h isCyrillic) (lettered_null h isCyrillic), List.map_map]
  rfl

theorem tokensUnder_eq_onePassTokens (h : icu.Classifies) (isCyrillic : Bool) (u : List Char) :
    tokensUnder icu isCyrillic u = onePassTokens icu isCyrillic u := by
  calc
    tokensUnder icu isCyrillic u
        = (runs (lettered icu isCyrillic) (visibleStage u)).map
            (fun run => (run.destutter (· ≠ ·)).map (leetChar isCyrillic)) :=
          tokensUnder_eq h isCyrillic u
    -- deleting invisible code points glues the runs around them
    _ = ((runs (kept icu isCyrillic) u).filter (fun run => !(run.filter visible).isEmpty)).map
            (yielded isCyrillic) := by
          rw [visibleStage, runs_filter, kept_eq, List.filter_map, List.map_map]
          rfl
    _ = onePassTokens icu isCyrillic u := by
          rw [onePassTokens, List.filter_map]
          simp only [Function.comp_def, isEmpty_yielded]

/-- No forbidden word is empty, so the runs without a visible code point do not count. -/
theorem forbiddenCount_onePassTokens (isCyrillic : Bool) (u : List Char) :
    forbiddenCount (onePassTokens icu isCyrillic u) = onePassCount icu isCyrillic u := by
  have hnonempty : ∀ word : List Char,
      decide (Utf8.encode word ∈ forbiddenWords) = true → word.isEmpty = false := by
    intro word hword
    cases word with
    | nil =>
        exact absurd hword (by decide)
    | cons c cs =>
        rfl
  -- both sides count over the same runs; the empty tokens are those filtered out
  rw [forbiddenCount, onePassTokens, onePassCount, List.countP_filter, List.countP_map]
  apply List.countP_congr
  intro run _
  simp only [Function.comp_apply, Bool.and_eq_true, Bool.not_eq_true']
  constructor
  · intro hword
    exact hword.1
  · intro hword
    exact ⟨hword, hnonempty _ hword⟩

/-- The tokens `TextProcessing` checks are those of the one-pass specification, for the orientation
of the collapsed text, and the verdict counts the runs that yield a forbidden word. -/
theorem textProcessing_onePass (ht : icu.Transcodes) (hc : icu.Classifies) (textN : StdString) :
    let u := icu.decodeUTF8 (textNormalization icu textN)
    let isCyrillic := isPrimarilyCyrillic icu (collapsedText icu textN)
    textProcessingTokens icu textN = (onePassTokens icu isCyrillic u).map Utf8.encode ∧
      (textProcessing icu textN = true ↔ forbiddenWordThreshold < onePassCount icu isCyrillic u) := by
  intro u isCyrillic
  have hu : u = normalizedText icu textN := decode_textNormalization ht textN
  have ho : isCyrillic = orientation icu u := by
    rw [hu]
    exact orientation_eq ht textN
  have htokens := tokensUnder_eq_onePassTokens hc isCyrillic u
  refine ⟨?_, ?_⟩
  · rw [textProcessingTokens_eq ht, ← hu, ← ho, htokens]
  · rw [textProcessing_eq_verdict ht, ← hu, verdict, ← ho, htokens, forbiddenCount_onePassTokens,
      decide_eq_true_iff]

/-- Invisible characters inside words, a blank run, and a symbol that the map turns into a letter. -/
theorem textProcessing_onePass_sample :
    let icu := SampleIcu.sampleIcu
    let textN := Utf8.encode ['g', '\u200B', 'a', 'y', ' ', ' ', 'g', '@', 'y', '!']
    let u := icu.decodeUTF8 (textNormalization icu textN)
    let isCyrillic := isPrimarilyCyrillic icu (collapsedText icu textN)
    textProcessingTokens icu textN = (onePassTokens icu isCyrillic u).map Utf8.encode ∧
      (textProcessing icu textN = true ↔ forbiddenWordThreshold < onePassCount icu isCyrillic u) :=
  textProcessing_onePass SampleIcu.sample_transcodes SampleIcu.sample_classifies _

end OnePass
end ModerationService
