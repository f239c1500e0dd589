import ModerationService.Service.Stretching

/-!
# Homoglyphs — Cyrillic words under homoglyphs and leetspeak keys

A disguised copy of a Cyrillic word replaces some letters by Latin homoglyphs or by keys of the
Cyrillic leetspeak map.  Under the Cyrillic orientation every copy is restored
(`Disguised.restored`); under the Latin one only the copies without a replaced letter count.  The
orientation compares the letters of the text as it is written, so the disguise itself can turn it:
`textProcessing_disguised` says exactly when the text is flagged.
-/

namespace ModerationService
namespace Homoglyphs

open Library Library.Runs Library.Collapse Icu CodePoints TextProcessingConstants
open TextNormalization LeetspeakNormalization WordChecker TextProcessor LoopRefinement OnePass
open Locality Stretching

variable {icu : Icu}

/-! ## Disguised letters -/

/-- The letter itself, a Latin homoglyph of it, or a key of the Cyrillic leetspeak map. -/
def Disguised (c d : Char) : Prop :=
  d = c ∨ lookup homoglyphMap d = some c ∨ lookup leetMapCyrillic d = some c

/-- The code points of disguised texts. -/
def disguiseAlphabet (w : List Char) (c : Char) : Prop :=
  c = ' ' ∨ ∃ letter ∈ w, Disguised letter c

/-- The Cyrillic forbidden words. -/
theorem cyrillic_forbidden {w : List Char} (hforbidden : Utf8.encode w ∈ forbiddenWords)
    (hw : ∀ c ∈ w, cyrillic c = true) : w = wordEblan ∨ w = wordShutka := by
  -- encoding is injective, and the first forbidden word is Latin
  rcases mem_forbiddenWords.1 hforbidden with h | h | h
  · have hgay := Utf8.encode_injective h
    subst hgay
    exact absurd (hw 'g' (by decide)) (by decide)
  · exact Or.inl (Utf8.encode_injective h)
  · exact Or.inr (Utf8.encode_injective h)

/-- Keys that stand for a letter of a forbidden word: the Cyrillic orientation restores the letter,
and the Latin one makes some other printable letter of them. -/
theorem disguise_entries : ∀ entry ∈ homoglyphMap ++ leetMapCyrillic,
    entry.2 ∈ wordEblan ++ wordShutka →
      leetChar true entry.1 = entry.2 ∧ (leetChar false entry.1).toNat ≤ 0x7A ∧
        (0x61 ≤ (leetChar false entry.1).toNat) := by
  decide +kernel

theorem letter_range : ∀ c ∈ wordEblan ++ wordShutka, 0x430 ≤ c.toNat ∧ c.toNat ≤ 0x44F :=
  List.forall_iff_forall_mem.1 (by decide)

section Letter

variable {c d : Char}

theorem Disguised.printable (h : Disguised c d) (hne : d ≠ c) :
    (d, c) ∈ homoglyphMap ++ leetMapCyrillic ∧ 0x21 ≤ d.toNat ∧ d.toNat ≤ 0x7E := by
  have hmem : (d, c) ∈ homoglyphMap ++ leetMapCyrillic := by
    rcases h with rfl | h | h
    · exact absurd rfl hne
    · exact List.mem_append_left _ (mem_of_lookup h)
    · exact List.mem_append_right _ (mem_of_lookup h)
  refine ⟨hmem, keys_printable (d, c) ?_⟩
  rcases List.mem_append.1 hmem with h | h <;> simp [h]

/-- The Cyrillic orientation undoes every disguise. -/
theorem Disguised.restored (hc : c ∈ wordEblan ++ wordShutka) (h : Disguised c d) :
    leetChar true d = c := by
  by_cases hne : d = c
  · subst hne
    exact leetChar_of_unprintable (Or.inr (Nat.lt_of_lt_of_le (by decide) (letter_range d hc).1)) _
  · exact (disguise_entries _ (h.printable hne).1 hc).1

/-- The Latin orientation makes a letter of it, which is `c` only where nothing was replaced. -/
theorem Disguised.latinised (hc : c ∈ wordEblan ++ wordShutka) (h : Disguised c d) :
    leetChar false d = c ∧ d = c ∨
      0x61 ≤ (leetChar false d).toNat ∧ (leetChar false d).toNat ≤ 0x7A ∧ d ≠ c := by
  by_cases hne : d = c
  · subst hne
    left
    exact ⟨leetChar_of_unprintable
      (Or.inr (Nat.lt_of_lt_of_le (by decide) (letter_range d hc).1)) _, rfl⟩
  · right
    have hentry := disguise_entries _ (h.printable hne).1 hc
    exact ⟨hentry.2.2, hentry.2.1, hne⟩

theorem Disguised.lettered (hicu : icu.Classifies) (hc : c ∈ wordEblan ++ wordShutka)
    (h : Disguised c d) (isCyrillic : Bool) : lettered icu isCyrillic d = true := by
  have hrange := letter_range c hc
  have hletter : icu.isalnum c = true := hicu.alnum_cyrillic c.toNat hrange.1 hrange.2
  cases isCyrillic with
  | true =>
      rw [OnePass.lettered, h.restored hc]
      exact hletter
  | false =>
      rcases h.latinised hc with ⟨heq, _⟩ | ⟨hlow, hhigh, _⟩
      · rw [OnePass.lettered, heq]
        exact hletter
      · have halnum := hicu.alnum_ascii (leetChar false d).toNat (Nat.lt_of_le_of_lt hhigh (by decide))
        refine halnum.trans ?_
        rw [decide_eq_true_iff]
        exact Or.inr (Or.inr ⟨hlow, hhigh⟩)

theorem Disguised.visible (hc : c ∈ wordEblan ++ wordShutka) (h : Disguised c d) :
    visible d = true := by
  by_cases hne : d = c
  · have hrange := letter_range c hc
    rw [CodePoints.visible, Bool.not_eq_true', ← Bool.not_eq_true, hne]
    intro hinvisible
    have hcases := (invisible_iff c.toNat).1 hinvisible
    omega
  · exact visible_of_printable (h.printable hne).2.2

theorem Disguised.not_blank (hicu : icu.Classifies) (hc : c ∈ wordEblan ++ wordShutka)
    (h : Disguised c d) : icu.isWhitespace d = false := by
  rw [← Bool.not_eq_true]
  intro hblank
  have hrange := letter_range c hc
  have hout := whitespace_unprintable hicu hblank
  by_cases hne : d = c
  · subst hne
    have hnot := hicu.whitespace_cyrillic d.toNat (by omega) (by omega)
    have hblank' : icu.uIsWhitespace d.toNat = true := hblank
    rw [hblank'] at hnot
    exact absurd hnot (by simp)
  · have hprintable := (h.printable hne).2
    omega

end Letter

/-! ## Disguised copies -/

section Copy

variable {w copy : List Char}

/-- What the proofs use of the two Cyrillic forbidden words. -/
theorem forbidden_word (h : w = wordEblan ∨ w = wordShutka) :
    w ⊆ wordEblan ++ wordShutka ∧ w.length = 5 ∧ w.IsChain (· ≠ ·) ∧
      Utf8.encode w ∈ forbiddenWords := by
  rcases h with rfl | rfl
  · refine ⟨by simp, by decide, by decide, by decide⟩
  · refine ⟨by simp, by decide, by decide, by decide⟩

theorem copy_mem (h : List.Forall₂ Disguised w copy) {d : Char} (hd : d ∈ copy) :
    ∃ c ∈ w, Disguised c d := by
  induction h with
  | nil =>
      simp at hd
  | cons hdisguised _ ih =>
      rcases List.mem_cons.1 hd with rfl | hd
      · exact ⟨_, by simp, hdisguised⟩
      · rcases ih hd with ⟨c, hc, hcd⟩
        exact ⟨c, List.mem_cons_of_mem _ hc, hcd⟩

theorem copy_restored (hw : w ⊆ wordEblan ++ wordShutka) (h : List.Forall₂ Disguised w copy) :
    copy.map (leetChar true) = w := by
  induction h with
  | nil =>
      rfl
  | cons hdisguised _ ih =>
      have hrest := ih (fun c hc => hw (List.mem_cons_of_mem _ hc))
      rw [List.map_cons, hdisguised.restored (hw (by simp)), hrest]

/-- Under the Latin map a copy is all Cyrillic only when no letter was replaced. -/
theorem copy_eq_of_cyrillic (hw : w ⊆ wordEblan ++ wordShutka) (h : List.Forall₂ Disguised w copy)
    (hcyrillic : ∀ c ∈ copy.map (leetChar false), 0x430 ≤ c.toNat) : copy = w := by
  induction h with
  | nil =>
      rfl
  | cons hdisguised _ ih =>
      have hrest := ih (fun c hc => hw (List.mem_cons_of_mem _ hc))
        (fun c hc => hcyrillic c (List.mem_cons_of_mem _ hc))
      have hhead := hcyrillic _ (List.mem_cons_self)
      rcases hdisguised.latinised (hw (by simp)) with ⟨_, heq⟩ | ⟨_, hhigh, _⟩
      · rw [heq, hrest]
      · omega

theorem copy_chain (hw : w = wordEblan ∨ w = wordShutka) (h : List.Forall₂ Disguised w copy) :
    copy.IsChain (· ≠ ·) := by
  rcases forbidden_word hw with ⟨hsub, _, hchain, _⟩
  rw [← copy_restored hsub h] at hchain
  exact isChain_of_map hchain

theorem copy_ne_nil (hw : w = wordEblan ∨ w = wordShutka) (h : List.Forall₂ Disguised w copy) :
    copy ≠ [] := by
  have hlength := h.length_eq
  rcases forbidden_word hw with ⟨_, hfive, _⟩
  rintro rfl
  rw [hfive] at hlength
  exact absurd hlength (by decide)

/-- Under either orientation a copy is a single token. -/
theorem copy_token (hicu : icu.Classifies) (hw : w = wordEblan ∨ w = wordShutka)
    (h : List.Forall₂ Disguised w copy) (isCyrillic : Bool) :
    tokensUnder icu isCyrillic copy = [copy.map (leetChar isCyrillic)] := by
  have hsub := (forbidden_word hw).1
  apply tokensUnder_word hicu (Stretch.refl copy) (copy_ne_nil hw h)
  · intro d hd
    rcases copy_mem h hd with ⟨c, hc, hcd⟩
    exact hcd.lettered hicu (hsub hc) isCyrillic
  · intro d hd
    rcases copy_mem h hd with ⟨c, hc, hcd⟩
    exact hcd.visible (hsub hc)
  · exact copy_chain hw h

theorem flaggedCount_copy_true (hicu : icu.Classifies) (hw : w = wordEblan ∨ w = wordShutka)
    (h : List.Forall₂ Disguised w copy) : flaggedCount icu true copy = 1 := by
  rcases forbidden_word hw with ⟨hsub, _, _, hforbidden⟩
  rw [flaggedCount, copy_token hicu hw h, copy_restored hsub h]
  simp [forbiddenCount, hforbidden]

theorem latinised_forbidden (hw : w = wordEblan ∨ w = wordShutka)
    (h : List.Forall₂ Disguised w copy) :
    Utf8.encode (copy.map (leetChar false)) ∈ forbiddenWords ↔ copy = w := by
  rcases forbidden_word hw with ⟨hsub, hfive, _, hforbidden⟩
  constructor
  · intro hmem
    -- a Cyrillic word can only come from a copy in which no letter became Latin
    have hcyrillic : ∀ v, v ⊆ wordEblan ++ wordShutka →
        Utf8.encode (copy.map (leetChar false)) = Utf8.encode v → copy = w := by
      intro v hv heq
      apply copy_eq_of_cyrillic hsub h
      intro c hc
      rw [Utf8.encode_injective heq] at hc
      exact (letter_range c (hv hc)).1
    rcases mem_forbiddenWords.1 hmem with heq | heq | heq
    · -- the Latin word has another length
      have hlength := congrArg List.length (Utf8.encode_injective heq)
      rw [List.length_map, ← h.length_eq, hfive] at hlength
      exact absurd hlength (by decide)
    · exact hcyrillic wordEblan (by simp) heq
    · exact hcyrillic wordShutka (by simp) heq
  · rintro rfl
    have hsame : copy.map (leetChar false) = copy := by
      calc
        copy.map (leetChar false) = copy.map id := by
          apply List.map_congr_left
          intro c hc
          exact leetChar_of_unprintable
            (Or.inr (Nat.lt_of_lt_of_le (by decide) (letter_range c (hsub hc)).1)) false
        _ = copy := List.map_id copy
    rw [hsame]
    exact hforbidden

theorem flaggedCount_copy_false (hicu : icu.Classifies) (hw : w = wordEblan ∨ w = wordShutka)
    (h : List.Forall₂ Disguised w copy) :
    flaggedCount icu false copy = if copy = w then 1 else 0 := by
  rw [flaggedCount, copy_token hicu hw h]
  simp [forbiddenCount, latinised_forbidden hw h, List.countP_cons]

/-- The collapses leave a copy as it is. -/
theorem collapsed_copy (hicu : icu.Classifies) (hw : w = wordEblan ∨ w = wordShutka)
    (h : List.Forall₂ Disguised w copy) : collapsed icu copy = copy := by
  have hsub := (forbidden_word hw).1
  have hvisible : visibleStage copy = copy := by
    apply List.filter_eq_self.2
    intro d hd
    rcases copy_mem h hd with ⟨c, hc, hcd⟩
    exact hcd.visible (hsub hc)
  have hblank : ∀ d ∈ copy, icu.isWhitespace d = false := by
    intro d hd
    rcases copy_mem h hd with ⟨c, hc, hcd⟩
    exact hcd.not_blank hicu (hsub hc)
  -- the sentinel of the repetition stage is not a letter, so the first one is kept
  have hhead : copy.head? ≠ some null := by
    intro hnull
    rcases copy_mem h (List.mem_of_mem_head? hnull) with ⟨c, hc, hcd⟩
    have hlettered := hcd.lettered hicu (hsub hc) true
    rw [lettered_null hicu] at hlettered
    exact absurd hlettered (by simp)
  calc
    collapsed icu copy
        = dropRepeats null (squeeze icu.isWhitespace ' ' true copy) := by
          rw [collapsed, hvisible]
          rfl
    _ = dropRepeats null copy := by rw [squeeze_of_none hblank]
    _ = copy := by
          rw [dropRepeats_eq_destutter hhead, List.destutter_of_isChain _ _ (copy_chain hw h)]

end Copy

/-! ## The whole text -/

theorem countP_intercalate {p : Char → Bool} (hp : p ' ' = false) (words : List (List Char)) :
    ([' '].intercalate words).countP p = (words.map (List.countP p)).sum := by
  induction words with
  | nil =>
      rfl
  | cons w words ih =>
      cases words with
      | nil =>
          simp
      | cons w' words =>
          rw [List.intercalate_cons_cons, List.countP_append, List.countP_append, ih]
          simp [hp]

theorem sum_indicator (w : List Char) (words : List (List Char)) :
    (words.map (fun word => if word = w then 1 else 0)).sum = words.count w := by
  induction words with
  | nil =>
      rfl
  | cons word words ih =>
      rw [List.map_cons, List.sum_cons, ih, List.count_cons, Nat.add_comm]
      simp

theorem disguised_alphabet {w : List Char} {copies : List (List Char)}
    (h : ∀ copy ∈ copies, List.Forall₂ Disguised w copy) :
    ∀ c ∈ [' '].intercalate copies, disguiseAlphabet w c := by
  induction copies with
  | nil =>
      simp
  | cons copy copies ih =>
      have hcopy : ∀ c ∈ copy, disguiseAlphabet w c :=
        fun c hc => Or.inr (copy_mem (h copy (by simp)) hc)
      have hrest := ih (fun copy' hmem => h copy' (List.mem_cons_of_mem copy hmem))
      cases copies with
      | nil =>
          simpa using hcopy
      | cons copy' copies =>
          intro c hc
          rw [List.intercalate_cons_cons] at hc
          rcases List.mem_append.1 hc with hc | hc
          · rcases List.mem_append.1 hc with hc | hc
            · exact hcopy c hc
            · exact Or.inl (List.mem_singleton.1 hc)
          · exact hrest c hc

section Text

variable {w : List Char} {copies : List (List Char)} (ht : icu.Transcodes) (hc : icu.Classifies)
  (hicu : ActsPointwise icu (disguiseAlphabet w) id) (hword : w = wordEblan ∨ w = wordShutka)
  (hcopies : ∀ copy ∈ copies, List.Forall₂ Disguised w copy)

include ht hc hicu hcopies

/-- A word measure of the text is a sum over the copies. -/
theorem measure_disguised {F : List Char → Nat} (hF : WordMeasure icu F) :
    F (normalizedText icu (Utf8.encode ([' '].intercalate copies))) = (copies.map F).sum := by
  rw [normalizedText_pointwise ht hicu (disguised_alphabet hcopies), hF.trimmed, List.map_id,
    hF.intercalate hc]

include hword

/-- The orientation compares the letters of the text as it is written. -/
theorem orientation_disguised :
    orientation icu (normalizedText icu (Utf8.encode ([' '].intercalate copies))) =
      decide (([' '].intercalate copies).countP latin <
        ([' '].intercalate copies).countP cyrillic) := by
  -- the stages keep every letter of the text
  have hletters : ∀ p : Char → Bool, p ' ' = false →
      (copies.map (fun copy => (collapsed icu copy).countP p)).sum =
        ([' '].intercalate copies).countP p := by
    intro p hp
    rw [countP_intercalate hp]
    apply congrArg List.sum
    apply List.map_congr_left
    intro copy hcopy
    rw [collapsed_copy hc hword (hcopies copy hcopy)]
  rw [orientation_eq_counts, measure_disguised ht hc hicu hcopies (wordMeasure_latinCount hc),
    measure_disguised ht hc hicu hcopies (wordMeasure_cyrillicCount hc),
    ← hletters latin (by decide), ← hletters cyrillic (by decide)]
  rfl

/-- Under the Cyrillic orientation every copy counts. -/
theorem flaggedCount_disguised_true :
    flaggedCount icu true (normalizedText icu (Utf8.encode ([' '].intercalate copies))) =
      copies.length := by
  calc
    flaggedCount icu true (normalizedText icu (Utf8.encode ([' '].intercalate copies)))
        = (copies.map (flaggedCount icu true)).sum :=
          measure_disguised ht hc hicu hcopies (wordMeasure_flaggedCount hc true)
    _ = (copies.map (fun _ => 1)).sum := by
          apply congrArg List.sum
          apply List.map_congr_left
          intro copy hcopy
          exact flaggedCount_copy_true hc hword (hcopies copy hcopy)
    _ = copies.length := by simp

/-- Under the Latin orientation only the copies without a replaced letter count. -/
theorem flaggedCount_disguised_false :
    flaggedCount icu false (normalizedText icu (Utf8.encode ([' '].intercalate copies))) =
      copies.count w := by
  calc
    flaggedCount icu false (normalizedText icu (Utf8.encode ([' '].intercalate copies)))
        = (copies.map (flaggedCount icu false)).sum :=
          measure_disguised ht hc hicu hcopies (wordMeasure_flaggedCount hc false)
    _ = (copies.map (fun copy => if copy = w then 1 else 0)).sum := by
          apply congrArg List.sum
          apply List.map_congr_left
          intro copy hcopy
          exact flaggedCount_copy_false hc hword (hcopies copy hcopy)
    _ = copies.count w := sum_indicator w copies

end Text

/-- A text of disguised copies is flagged exactly when its Cyrillic letters outnumber its Latin
ones, or at least four copies have no letter replaced. -/
theorem textProcessing_disguised (ht : icu.Transcodes) (hc : icu.Classifies) {w : List Char}
    (hforbidden : Utf8.encode w ∈ forbiddenWords) (hw : ∀ c ∈ w, cyrillic c = true)
    (hicu : ActsPointwise icu (disguiseAlphabet w) id) {copies : List (List Char)}
    (hn : 4 ≤ copies.length) (hcopies : ∀ copy ∈ copies, List.Forall₂ Disguised w copy) :
    textProcessing icu (Utf8.encode ([' '].intercalate copies)) = true ↔
      ([' '].intercalate copies).countP latin < ([' '].intercalate copies).countP cyrillic ∨
        4 ≤ copies.count w := by
  have hword := cyrillic_forbidden hforbidden hw
  have horientation := orientation_disguised ht hc hicu hword hcopies
  have hcyrillic := flaggedCount_disguised_true ht hc hicu hword hcopies
  have hlatin := flaggedCount_disguised_false ht hc hicu hword hcopies
  rw [textProcessing_eq_verdict ht, verdict_eq_flaggedCount, horientation, decide_eq_true_iff]
  -- the orientation decides which of the two counts is compared with the threshold
  by_cases hmajority : ([' '].intercalate copies).countP latin <
      ([' '].intercalate copies).countP cyrillic
  · simp only [hmajority, decide_true, true_or, iff_true, hcyrillic]
    exact hn
  · simp only [hmajority, decide_false, false_or, hlatin]
    exact Iff.rfl

theorem sample_disguise {w : List Char} (hw : w ⊆ wordEblan ++ wordShutka) :
    ActsPointwise SampleIcu.sampleIcu (disguiseAlphabet w) id where
  instance_ok := rfl
  normalize_ok := fun _ _ => rfl
  lower_eq := by
    have hentries : ∀ entry ∈ homoglyphMap ++ leetMapCyrillic,
        SampleIcu.sampleLower entry.1 = entry.1 := by
      decide +kernel
    have hletters : ∀ c ∈ wordEblan ++ wordShutka, SampleIcu.sampleLower c = c :=
      List.forall_iff_forall_mem.1 (by decide)
    intro cs hcs
    apply List.map_congr_left
    intro d hd
    rcases hcs d hd with rfl | ⟨c, hc, hcd⟩
    · decide
    · by_cases hne : d = c
      · subst hne
        exact hletters d (hw hc)
      · exact hentries (d, c) (hcd.printable hne).1

/-- One copy as it is, and three with a homoglyph or a key in them. -/
theorem textProcessing_disguised_sample :
    let text := [' '].intercalate
      [wordEblan, ['e', 'б', 'л', 'а', 'н'], ['е', '6', 'л', '@', 'н'], ['е', 'б', 'л', 'a', 'h']]
    textProcessing SampleIcu.sampleIcu (Utf8.encode text) = true ↔
      text.countP latin < text.countP cyrillic ∨
        4 ≤ [wordEblan, ['e', 'б', 'л', 'а', 'н'], ['е', '6', 'л', '@', 'н'],
          ['е', 'б', 'л', 'a', 'h']].count wordEblan := by
  have hcopies : ∀ copy ∈ [wordEblan, ['e', 'б', 'л', 'а', 'н'], ['е', '6', 'л', '@', 'н'],
      ['е', 'б', 'л', 'a', 'h']], List.Forall₂ Disguised wordEblan copy := by
    unfold Disguised
    decide +kernel
  exact textProcessing_disguised SampleIcu.sample_transcodes SampleIcu.sample_classifies
    (by decide +kernel) (List.forall_iff_forall_mem.1 (by decide)) (sample_disguise (by simp))
    (by decide +kernel) hcopies

/-- Four copies with three Latin homoglyphs each: the text is taken for Latin and not flagged. -/
theorem textProcessing_disguised_missed :
    Utf8.encode wordEblan ∈ forbiddenWords ∧
    (∀ copy ∈ List.replicate 4 ['e', '6', 'л', 'a', 'h'], List.Forall₂ Disguised wordEblan copy) ∧
    ActsPointwise SampleIcu.sampleIcu (disguiseAlphabet wordEblan) id ∧
    textProcessing SampleIcu.sampleIcu
      (Utf8.encode ([' '].intercalate (List.replicate 4 ['e', '6', 'л', 'a', 'h']))) = false := by
  refine ⟨by decide, ?_, sample_disguise (by simp), by decide +kernel⟩
  unfold Disguised
  decide +kernel

end Homoglyphs
end ModerationService
