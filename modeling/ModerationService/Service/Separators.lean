import ModerationService.Service.LatinObfuscation

/-!
# Separators — one whitespace character in place of another

LINE SEPARATOR and PARAGRAPH SEPARATOR are whitespace, but the invisible stage deletes them before
blanks are squeezed, so they join the words that they stand between.  Every other whitespace
character can be replaced by U+0020.
-/

namespace ModerationService
namespace Separators

open Library Icu CodePoints TextNormalization TextProcessor Locality LatinObfuscation

variable {icu : Icu}

/-- Whitespace other than LINE SEPARATOR and PARAGRAPH SEPARATOR. -/
structure Separates (icu : Icu) (c : Char) : Prop where
  whitespace : icu.isWhitespace c = true
  line : c.toNat ≠ 0x2028
  paragraph : c.toNat ≠ 0x2029

/-- NFC and `toLower` map such whitespace to such whitespace, and work on either side of it alone. -/
structure SplitsAtWhitespace (icu : Icu) : Prop where
  normalize_split : ∀ as c bs, Separates icu c → ∃ d, Separates icu d ∧
    (icu.normalize (as ++ c :: bs)).1 = (icu.normalize as).1 ++ d :: (icu.normalize bs).1
  toLower_split : ∀ as c bs, Separates icu c → ∃ d, Separates icu d ∧
    icu.toLower (as ++ c :: bs) = icu.toLower as ++ d :: icu.toLower bs

/-- A code point that stays, or a separator that becomes U+0020. -/
inductive Replaced (icu : Icu) : Char → Char → Prop where
  | kept (c : Char) : Replaced icu c c
  | replaced {c : Char} (h : Separates icu c) : Replaced icu c ' '

theorem Separates.visible (hc : icu.Classifies) {c : Char} (h : Separates icu c) :
    visible c = true := by
  have hblanks : Blanks icu [c] :=
    List.forall_mem_singleton.2 ⟨h.whitespace, h.line, h.paragraph⟩
  exact visible_blank hc hblanks c (by simp)

theorem separates_space (hc : icu.Classifies) : Separates icu ' ' where
  whitespace := hc.whitespace_space
  line := by decide
  paragraph := by decide

/-- A number that splits at whitespace does so before the text is normalised too. -/
theorem measure_split (hc : icu.Classifies) (h : SplitsAtWhitespace icu) {F : List Char → Nat}
    (hF : WordMeasure icu F) {c : Char} (hsep : Separates icu c) (as bs : List Char) :
    F (icu.toLower (icu.normalize (as ++ c :: bs)).1) =
      F (icu.toLower (icu.normalize as).1) + F (icu.toLower (icu.normalize bs).1) := by
  rcases h.normalize_split as c bs hsep with ⟨d, hd, hnormalize⟩
  rcases h.toLower_split (icu.normalize as).1 d (icu.normalize bs).1 hd with ⟨e, he, hlower⟩
  rw [hnormalize, hlower, hF.blank _ e _ he.whitespace (he.visible hc)]

theorem measure_replaced (hc : icu.Classifies) (h : SplitsAtWhitespace icu) {F : List Char → Nat}
    (hF : WordMeasure icu F) {cs cs' : List Char} (hcs : List.Forall₂ (Replaced icu) cs cs')
    (as : List Char) :
    F (icu.toLower (icu.normalize (as ++ cs)).1) = F (icu.toLower (icu.normalize (as ++ cs')).1) := by
  -- up to the next separator the texts agree, and there they fall into two parts
  induction hcs generalizing as with
  | nil =>
      rfl
  | @cons c c' cs cs' hreplaced _ ih =>
      cases hreplaced with
      | kept =>
          have hmore := ih (as ++ [c])
          simpa using hmore
      | replaced hsep =>
          have hrest := ih []
          rw [measure_split hc h hF hsep, measure_split hc h hF (separates_space hc)]
          simpa using hrest

/-- Whitespace other than LINE SEPARATOR and PARAGRAPH SEPARATOR may be replaced by U+0020, each
occurrence or none. -/
theorem textProcessing_replaced (ht : icu.Transcodes) (hc : icu.Classifies) (hn : icu.Normalizes)
    (h : SplitsAtWhitespace icu) {textN textN' : StdString}
    (hreplaced : List.Forall₂ (Replaced icu) (icu.decodeUTF8 textN) (icu.decodeUTF8 textN')) :
    textProcessing icu textN' = textProcessing icu textN := by
  refine textProcessing_congr ht hc (fun F hF => ?_)
  have hsame := measure_replaced hc h hF hreplaced []
  rw [hF.normalizedText hn, hF.normalizedText hn]
  simpa [lowered] using hsame.symm

theorem sample_splitsAtWhitespace : SplitsAtWhitespace SampleIcu.sampleIcu where
  normalize_split := fun _ c _ hc => ⟨c, hc, rfl⟩
  toLower_split := by
    intro as c bs hc
    have hkept : SampleIcu.sampleLower c = c := sampleLower_of_blank hc.whitespace
    exact ⟨c, hc, by simp [SampleIcu.sampleIcu, hkept]⟩

/-- A tab, a no-break space that stays, and an ideographic space. -/
theorem textProcessing_replaced_sample :
    textProcessing SampleIcu.sampleIcu
        (Utf8.encode ['g', 'a', 'y', ' ', 'Ж', '\u00A0', 'x', ' ', '!']) =
      textProcessing SampleIcu.sampleIcu
        (Utf8.encode ['g', 'a', 'y', '\t', 'Ж', '\u00A0', 'x', '\u3000', '!']) := by
  have htab : Separates SampleIcu.sampleIcu '\t' := ⟨by decide, by decide, by decide⟩
  have hideographic : Separates SampleIcu.sampleIcu '\u3000' := ⟨by decide, by decide, by decide⟩
  refine textProcessing_replaced SampleIcu.sample_transcodes SampleIcu.sample_classifies
    SampleIcu.sample_normalizes sample_splitsAtWhitespace ?_
  rw [SampleIcu.sample_transcodes.decode_encode, SampleIcu.sample_transcodes.decode_encode]
  exact .cons (.kept _) (.cons (.kept _) (.cons (.kept _) (.cons (.replaced htab)
    (.cons (.kept _) (.cons (.kept _) (.cons (.kept _) (.cons (.replaced hideographic)
      (.cons (.kept _) .nil))))))))

/-- LINE SEPARATOR and PARAGRAPH SEPARATOR join the words between them, U+0020 does not. -/
theorem textProcessing_lineSeparator :
    let text (c : Char) : List Char :=
      ['g', 'a', 'y', c, 'g', 'a', 'y', c, 'g', 'a', 'y', c, 'g', 'a', 'y']
    (SampleIcu.sampleIcu.isWhitespace '\u2028' = true ∧
      SampleIcu.sampleIcu.isWhitespace '\u2029' = true) ∧
    (textProcessing SampleIcu.sampleIcu (Utf8.encode (text '\u2028')) = false ∧
      textProcessing SampleIcu.sampleIcu (Utf8.encode (text '\u2029')) = false) ∧
    textProcessing SampleIcu.sampleIcu (Utf8.encode (text ' ')) = true := by
  decide +kernel

end Separators
end ModerationService
