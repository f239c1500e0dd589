import ModerationService.Service.LoopRefinement

/-!
# CanonicalForm — the text that the three collapsing stages agree on

Deleting invisible characters, squeezing blanks and dropping repeats each bring new neighbours
together, yet what the last stage returns leaves none of the three anything to do, unless a U+0000
of the input has been taken for a repeat of the sentinel.
-/

namespace ModerationService
namespace CanonicalForm

open Library Library.Collapse Icu CodePoints TextNormalization LoopRefinement

variable {icu : Icu}

/-! ## On code points -/

/-- What every collapsed text satisfies. -/
structure Canonical (icu : Icu) (cs : List Char) : Prop where
  visible : ∀ c ∈ cs, invisible c.toNat = false
  blank : ∀ c ∈ cs, icu.isWhitespace c = true → c = ' '
  blanks : cs.IsChain (fun c d => ¬ (c = ' ' ∧ d = ' '))
  repeats : cs.IsChain (· ≠ ·)

theorem visible_of_mem_visibleStage {u : List Char} {c : Char} (h : c ∈ visibleStage u) :
    invisible c.toNat = false := by
  have hc : CodePoints.visible c = true := (List.mem_filter.1 h).2
  simpa [CodePoints.visible] using hc

theorem collapsed_canonical (u : List Char) : Canonical icu (collapsed icu u) := by
  have hrepeats : (collapsed icu u).IsChain (· ≠ ·) := isChain_dropRepeats null _
  refine ⟨?_, ?_, ?_, hrepeats⟩
  · intro c hc
    rcases mem_squeeze (mem_dropRepeats hc) with rfl | ⟨hc, _⟩
    · decide
    · exact visible_of_mem_visibleStage hc
  · intro c hc hblank
    rcases mem_squeeze (mem_dropRepeats hc) with hspace | ⟨_, hother⟩
    · exact hspace
    · simp [hblank] at hother
  · refine hrepeats.imp ?_
    rintro c d hne ⟨rfl, rfl⟩
    exact hne rfl

theorem null_not_mem_whitespaceStage {u : List Char} (h : null ∉ u) :
    null ∉ whitespaceStage icu (visibleStage u) := by
  intro hmem
  rcases mem_squeeze hmem with hspace | ⟨hmem, _⟩
  · exact absurd hspace (by decide)
  · exact h (List.mem_of_mem_filter hmem)

/-- Without U+0000 in the text, the collapsed one does not start with a blank. -/
theorem head_collapsed {u : List Char} (h : null ∉ u) :
    ∀ c ∈ (collapsed icu u).head?, icu.isWhitespace c = false := by
  intro c hc
  rw [collapsed, repetitionStage, head?_dropRepeats (null_not_mem_whitespaceStage h)] at hc
  exact head_squeeze hc

section Fixed

variable {cs : List Char} (hcs : Canonical icu cs)

include hcs

theorem Canonical.visibleStage_eq : visibleStage cs = cs := by
  refine List.filter_eq_self.2 ?_
  intro c hc
  simp [CodePoints.visible, hcs.visible c hc]

theorem Canonical.whitespaceStage_eq (hhead : ∀ c ∈ cs.head?, icu.isWhitespace c = false) :
    whitespaceStage icu cs = cs := by
  refine squeeze_eq_self hcs.blank ?_ (fun _ => hhead)
  refine hcs.repeats.imp_of_mem_imp ?_
  rintro c d hc hd hne ⟨hblank, hblank'⟩
  -- two blanks in a row would both be U+0020
  exact hne ((hcs.blank c hc hblank).trans (hcs.blank d hd hblank').symm)

theorem Canonical.repetitionStage_eq (hnull : null ∉ cs) : repetitionStage cs = cs := by
  refine dropRepeats_eq_self (List.isChain_cons.2 ⟨?_, hcs.repeats⟩)
  rintro c hc rfl
  exact hnull (List.mem_of_mem_head? hc)

end Fixed

/-! ## The stages -/

/-- The three collapsing stages, one after the other. -/
def collapse (icu : Icu) (textN : StdString) : StdString :=
  repetitionNormalization icu
    (whitespaceNormalization icu (invisibleCharacterNormalization icu textN))

theorem collapse_eq (h : icu.Transcodes) (textN : StdString) :
    collapse icu textN = Utf8.encode (collapsed icu (icu.decodeUTF8 textN)) := by
  simp only [collapse, repetitionNormalization_eq, whitespaceNormalization_eq,
    invisibleCharacterNormalization_eq, h.decode_encode, collapsed]

theorem decode_collapse (h : icu.Transcodes) (textN : StdString) :
    icu.decodeUTF8 (collapse icu textN) = collapsed icu (icu.decodeUTF8 textN) := by
  rw [collapse_eq h, h.decode_encode]

/-- The collapsing stages reach a canonical form; without U+0000 in the input it is one that each of
them leaves as it is. -/
theorem collapse_canonical (h : icu.Transcodes) (textN : StdString) :
    let x := collapse icu textN
    Canonical icu (icu.decodeUTF8 x) ∧
    (null ∉ icu.decodeUTF8 textN →
      (∀ c ∈ (icu.decodeUTF8 x).head?, icu.isWhitespace c = false) ∧
      invisibleCharacterNormalization icu x = x ∧ whitespaceNormalization icu x = x ∧
      repetitionNormalization icu x = x ∧ collapse icu x = x) := by
  intro x
  have hx : icu.decodeUTF8 x = collapsed icu (icu.decodeUTF8 textN) := decode_collapse h textN
  have hcanonical : Canonical icu (icu.decodeUTF8 x) := by
    rw [hx]
    exact collapsed_canonical _
  refine ⟨hcanonical, fun hnull => ?_⟩
  have hhead : ∀ c ∈ (icu.decodeUTF8 x).head?, icu.isWhitespace c = false := by
    rw [hx]
    exact head_collapsed hnull
  have hnull' : null ∉ icu.decodeUTF8 x := by
    rw [hx]
    exact fun hmem => null_not_mem_whitespaceStage hnull (mem_dropRepeats hmem)
  have hencode : Utf8.encode (icu.decodeUTF8 x) = x := by
    rw [hx]
    exact (collapse_eq h textN).symm
  have hinvisible : invisibleCharacterNormalization icu x = x := by
    rw [invisibleCharacterNormalization_eq, hcanonical.visibleStage_eq, hencode]
  have hwhitespace : whitespaceNormalization icu x = x := by
    rw [whitespaceNormalization_eq, hcanonical.whitespaceStage_eq hhead, hencode]
  have hrepetition : repetitionNormalization icu x = x := by
    rw [repetitionNormalization_eq, hcanonical.repetitionStage_eq hnull', hencode]
  refine ⟨hhead, hinvisible, hwhitespace, hrepetition, ?_⟩
  rw [collapse, hinvisible, hwhitespace, hrepetition]

/-- Blanks around an invisible character, and repeats around another one. -/
theorem collapse_canonical_sample :
    let icu := SampleIcu.sampleIcu
    let textN := Utf8.encode ['\t', ' ', '\u200B', ' ', 'g', '\u2060', 'g', ' ', '\u00AD', '\n', 'y']
    Canonical icu (icu.decodeUTF8 (collapse icu textN)) ∧
      collapse icu (collapse icu textN) = collapse icu textN := by
  have h := collapse_canonical SampleIcu.sample_transcodes
    (Utf8.encode ['\t', ' ', '\u200B', ' ', 'g', '\u2060', 'g', ' ', '\u00AD', '\n', 'y'])
  exact ⟨h.1, (h.2 (by decide +kernel)).2.2.2.2⟩

end CanonicalForm
end ModerationService
