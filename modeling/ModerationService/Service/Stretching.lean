import ModerationService.Service.Locality

/-!
# Stretching — repeated and re-cased letters

`toLower` and the two collapses undo a stretched and re-cased spelling: the collapsed text does not
see how often a code point was repeated (`collapsed_stretch`), so neither does the verdict
(`textProcessing_stretch`).  A stretched word of letters is a single token (`tokensUnder_word`).

On the texts considered here ICU works letter by letter (`ActsPointwise`).
-/

namespace ModerationService
namespace Stretching

open Library Library.Runs Library.Collapse Icu CodePoints TextProcessingConstants
open TextNormalization LeetspeakNormalization WordChecker TextProcessor LoopRefinement OnePass
open Locality

variable {icu : Icu}

/-! ## ICU letter by letter -/

/-- On texts over `alphabet`, normalising and lower-casing is the pointwise map `f`. -/
structure ActsPointwise (icu : Icu) (alphabet : Char → Prop) (f : Char → Char) : Prop where
  instance_ok : uFailure icu.getNFCInstance = false
  normalize_ok : ∀ cs, (∀ c ∈ cs, alphabet c) → uFailure (icu.normalize cs).2 = false
  lower_eq : ∀ cs, (∀ c ∈ cs, alphabet c) → icu.toLower (icu.normalize cs).1 = cs.map f

theorem normalizedText_pointwise {alphabet : Char → Prop} {f : Char → Char} (ht : icu.Transcodes)
    (h : ActsPointwise icu alphabet f) {cs : List Char} (hcs : ∀ c ∈ cs, alphabet c) :
    normalizedText icu (Utf8.encode cs) = icu.trimmed (cs.map f) := by
  simp only [normalizedText, ht.decode_encode, h.instance_ok, h.normalize_ok cs hcs,
    h.lower_eq cs hcs]
  rfl

/-! ## Stretching and re-casing -/

/-- The alphabet of ASCII and the Cyrillic block. -/
def asciiOrCyrillic (c : Char) : Prop :=
  c.toNat < 0x80 ∨ 0x400 ≤ c.toNat ∧ c.toNat ≤ 0x4FF

instance (c : Char) : Decidable (asciiOrCyrillic c) :=
  inferInstanceAs (Decidable (_ ∨ _))

/-- A non-empty block of letters that all lower-case to the lower case of `c`. -/
def Recased (lower : Char → Char) (c : Char) (block : List Char) : Prop :=
  block ≠ [] ∧ ∀ d ∈ block, asciiOrCyrillic d ∧ lower d = lower c

instance (lower : Char → Char) (c : Char) (block : List Char) :
    Decidable (Recased lower c block) :=
  decidable_of_iff (block ≠ [] ∧ block.Forall fun d => asciiOrCyrillic d ∧ lower d = lower c)
    (and_congr_right' List.forall_iff_forall_mem)

theorem map_eq_replicate {f : Char → Char} {d : Char} {block : List Char} (hne : block ≠ [])
    (h : ∀ c ∈ block, f c = d) : ∃ n, block.map f = List.replicate (n + 1) d := by
  rcases List.exists_cons_of_ne_nil hne with ⟨c, rest, rfl⟩
  refine ⟨rest.length, ?_⟩
  rw [List.eq_replicate_iff]
  refine ⟨by simp, ?_⟩
  intro e he
  rcases List.mem_map.1 he with ⟨c', hc', rfl⟩
  exact h c' hc'

theorem stretch_recased {lower : Char → Char} {cs : List Char} {blocks : List (List Char)}
    (h : List.Forall₂ (Recased lower) cs blocks) :
    Stretch (cs.map lower) (blocks.flatten.map lower) := by
  induction h with
  | nil =>
      exact Stretch.nil
  | cons hblock _ ih =>
      rcases map_eq_replicate hblock.1 (fun d hd => (hblock.2 d hd).2) with ⟨n, hn⟩
      rw [List.map_cons, List.flatten_cons, List.map_append, hn]
      exact Stretch.cons _ n ih

theorem recased_alphabet {lower : Char → Char} {cs : List Char} {blocks : List (List Char)}
    (h : List.Forall₂ (Recased lower) cs blocks) : ∀ d ∈ blocks.flatten, asciiOrCyrillic d := by
  induction h with
  | nil =>
      simp
  | cons hblock _ ih =>
      intro d hd
      rw [List.flatten_cons] at hd
      rcases List.mem_append.1 hd with hd | hd
      · exact (hblock.2 d hd).1
      · exact ih d hd

theorem stretch_trimmed {xs ys : List Char} (h : Stretch xs ys) :
    Stretch (icu.trimmed xs) (icu.trimmed ys) := by
  -- trimming on the right is trimming the reversed text on the left
  have hleft := h.dropWhile icu.isWhitespace
  exact (hleft.reverse.dropWhile icu.isWhitespace).reverse

/-- Collapsing forgets how often a code point was repeated. -/
theorem collapsed_stretch {xs ys : List Char} (h : Stretch xs ys) :
    collapsed icu xs = collapsed icu ys :=
  (h.filter visible).dropRepeats_squeeze icu.isWhitespace ' ' true null

/-- The verdict depends on the collapsed text alone. -/
theorem verdict_congr {u v : List Char} (h : collapsed icu u = collapsed icu v) :
    verdict icu u = verdict icu v := by
  unfold verdict tokensUnder orientation
  rw [h]

/-- Stretching and re-casing letters never changes the verdict. -/
theorem textProcessing_stretch (ht : icu.Transcodes) {lower : Char → Char}
    (h : ActsPointwise icu asciiOrCyrillic lower) {cs : List Char} {blocks : List (List Char)}
    (hcs : ∀ c ∈ cs, asciiOrCyrillic c) (hblocks : List.Forall₂ (Recased lower) cs blocks) :
    textProcessing icu (Utf8.encode blocks.flatten) = textProcessing icu (Utf8.encode cs) := by
  -- lower-casing turns the re-cased blocks into repetitions, which trimming and collapsing forget
  have hcollapsed : collapsed icu (icu.trimmed (cs.map lower)) =
      collapsed icu (icu.trimmed (blocks.flatten.map lower)) :=
    collapsed_stretch (stretch_trimmed (stretch_recased hblocks))
  rw [textProcessing_eq_verdict ht, textProcessing_eq_verdict ht, normalizedText_pointwise ht h hcs,
    normalizedText_pointwise ht h (recased_alphabet hblocks)]
  exact (verdict_congr hcollapsed).symm

theorem sample_actsPointwise (alphabet : Char → Prop) :
    ActsPointwise SampleIcu.sampleIcu alphabet SampleIcu.sampleLower where
  instance_ok := rfl
  normalize_ok := fun _ _ => rfl
  lower_eq := fun _ _ => rfl

/-- A stretched blank, a stretched U+0000 and a letter that changes its case inside the block. -/
theorem textProcessing_stretch_sample :
    textProcessing SampleIcu.sampleIcu
        (Utf8.encode ['G', 'g', 'g', 'a', 'Y', ' ', ' ', '\x00', '\x00', 'Ж', 'ж']) =
      textProcessing SampleIcu.sampleIcu (Utf8.encode ['g', 'A', 'y', ' ', '\x00', 'ж']) := by
  have hcs : ∀ c ∈ ['g', 'A', 'y', ' ', '\x00', 'ж'], asciiOrCyrillic c :=
    List.forall_iff_forall_mem.1 (by decide)
  have hblocks : List.Forall₂ (Recased SampleIcu.sampleLower) ['g', 'A', 'y', ' ', '\x00', 'ж']
      [['G', 'g', 'g'], ['a'], ['Y'], [' ', ' '], ['\x00', '\x00'], ['Ж', 'ж']] := by
    decide +kernel
  have h := textProcessing_stretch SampleIcu.sample_transcodes (sample_actsPointwise _) hcs hblocks
  simpa only [List.flatten_cons, List.flatten_nil, List.cons_append, List.nil_append] using h

/-! ## A single disguised word -/

theorem mem_of_lookup {map : CharMap} {c d : Char} (h : lookup map c = some d) : (c, d) ∈ map := by
  rcases Option.map_eq_some_iff.1 h with ⟨entry, hfind, rfl⟩
  have hkey : entry.1 = c := by
    simpa using List.find?_some hfind
  rw [← hkey]
  exact List.mem_of_find?_eq_some hfind

theorem visible_of_printable {c : Char} (h : c.toNat ≤ 0x7E) : visible c = true := by
  rw [visible, Bool.not_eq_true', ← Bool.not_eq_true]
  intro hinvisible
  have hc := (invisible_iff c.toNat).1 hinvisible
  omega

theorem mem_collapsed {c : Char} {u : List Char} (h : c ∈ collapsed icu u) : c = ' ' ∨ c ∈ u := by
  have h' : c ∈ whitespaceStage icu (visibleStage u) := mem_dropRepeats h
  rcases mem_squeeze h' with hc | ⟨hc, _⟩
  · exact Or.inl hc
  · exact Or.inr (List.mem_of_mem_filter hc)

section Word

variable {isCyrillic : Bool} {symbols xs : List Char}

/-- A stretched word of visible symbols, all of which the map turns into letters, is one token. -/
theorem tokensUnder_word (h : icu.Classifies) (hstretch : Stretch symbols xs) (hne : symbols ≠ [])
    (hlettered : ∀ c ∈ symbols, lettered icu isCyrillic c = true)
    (hvisible : ∀ c ∈ symbols, visible c = true) (hchain : symbols.IsChain (· ≠ ·)) :
    tokensUnder icu isCyrillic xs = [symbols.map (leetChar isCyrillic)] := by
  have hvisibleStage : visibleStage xs = xs :=
    List.filter_eq_self.2 (fun c hc => hvisible c (hstretch.mem hc))
  have hxs : xs ≠ [] := by
    rintro rfl
    cases hstretch
    exact hne rfl
  -- every symbol is a letter after the map, so the word is its own only run
  have hruns : runs (lettered icu isCyrillic) xs = [xs] :=
    runs_of_all_ne_nil (fun c hc => hlettered c (hstretch.mem hc)) hxs
  rw [tokensUnder_eq h, hvisibleStage, hruns, List.map_singleton, ← hstretch.destutter,
    List.destutter_of_isChain _ _ hchain]

theorem cyrillicCount_eq_zero {u : List Char} (h : ∀ c ∈ u, cyrillic c = false) :
    cyrillicCount icu u = 0 := by
  rw [cyrillicCount, List.countP_eq_zero]
  intro c hc
  rcases mem_collapsed hc with rfl | hc
  · decide
  · simp [h c hc]

end Word

end Stretching
end ModerationService
