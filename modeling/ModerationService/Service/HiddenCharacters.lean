import ModerationService.Service.Locality

/-!
# HiddenCharacters — zero-width and format characters put into a text

The invisible characters are deleted after the text has been composed and lower-cased.  A character
put between a base letter and its combining mark keeps the two from being composed, and after its
deletion they are not composed again.  Where it is put at a place that composition does not act
across, the verdict stays.
-/

namespace ModerationService
namespace HiddenCharacters

open Library Icu CodePoints TextNormalization TextProcessor Locality

variable {icu : Icu}

/-! ## Insertions -/

/-- What the invisible stage deletes, LINE SEPARATOR and PARAGRAPH SEPARATOR apart. -/
def zeroWidth (c : Char) : Bool :=
  invisible c.toNat && c.toNat != 0x2028 && c.toNat != 0x2029

/-- One place of a text where something has been put in. -/
structure Insertion where
  inserted : List Char
  /-- the text from here to the next place -/
  rest : List Char
  nonempty : inserted ≠ []
  allZeroWidth : ∀ c ∈ inserted, zeroWidth c = true

/-- The text without what has been put in; `first` is what comes before the first place. -/
def plain (first : List Char) (insertions : List Insertion) : List Char :=
  first ++ insertions.flatMap Insertion.rest

def marked (first : List Char) (insertions : List Insertion) : List Char :=
  first ++ insertions.flatMap (fun place => place.inserted ++ place.rest)

def Insertion.mapRest (f : List Char → List Char) (place : Insertion) : Insertion :=
  { place with rest := f place.rest }

theorem marked_cons (first : List Char) (place : Insertion) (insertions : List Insertion) :
    marked first (place :: insertions) =
      first ++ (place.inserted ++ marked place.rest insertions) := by
  simp [marked]

theorem plain_cons (first : List Char) (place : Insertion) (insertions : List Insertion) :
    plain first (place :: insertions) = first ++ plain place.rest insertions := by
  simp [plain]

/-- Composition does not act across any of the places. -/
def Undisturbed (icu : Icu) (first : List Char) (insertions : List Insertion) : Prop :=
  (icu.normalize (plain first insertions)).1 =
    plain (icu.normalize first).1
      (insertions.map (Insertion.mapRest (fun cs => (icu.normalize cs).1)))

/-! ## What ICU does with them -/

/-- A zero-width character is inert under NFC, and the contexts that `toLower` looks at skip it. -/
structure PassesZeroWidth (icu : Icu) : Prop where
  normalize_nil : (icu.normalize []).1 = []
  normalize_zeroWidth : ∀ as z bs, zeroWidth z = true →
    (icu.normalize (as ++ z :: bs)).1 = (icu.normalize as).1 ++ z :: (icu.normalize bs).1
  toLower_zeroWidth : ∀ as z bs, zeroWidth z = true →
    (icu.toLower (as ++ z :: bs)).filter (fun c => !zeroWidth c) =
      (icu.toLower (as ++ bs)).filter (fun c => !zeroWidth c)

section Passing

variable (h : PassesZeroWidth icu)

include h

theorem normalize_inserted {zs : List Char} (hne : zs ≠ []) (hzs : ∀ z ∈ zs, zeroWidth z = true)
    (as bs : List Char) :
    (icu.normalize (as ++ (zs ++ bs))).1 = (icu.normalize as).1 ++ (zs ++ (icu.normalize bs).1) := by
  induction zs generalizing as with
  | nil =>
      exact absurd rfl hne
  | cons z zs ih =>
      have hz : zeroWidth z = true := hzs z (by simp)
      have hrest : ∀ y ∈ zs, zeroWidth y = true := fun y hy => hzs y (List.mem_cons_of_mem z hy)
      rw [List.cons_append, h.normalize_zeroWidth as z _ hz]
      by_cases hnil : zs = []
      · simp [hnil]
      · -- the other characters stand at the start of what follows `z`
        have htail := ih hnil hrest []
        rw [h.normalize_nil, List.nil_append, List.nil_append] at htail
        simp [htail]

/-- Composition works piece by piece between the places. -/
theorem normalize_marked (first : List Char) (insertions : List Insertion) :
    (icu.normalize (marked first insertions)).1 =
      marked (icu.normalize first).1
        (insertions.map (Insertion.mapRest (fun cs => (icu.normalize cs).1))) := by
  induction insertions generalizing first with
  | nil =>
      simp [marked]
  | cons place insertions ih =>
      rw [marked_cons, normalize_inserted h place.nonempty place.allZeroWidth, ih, List.map_cons,
        marked_cons]
      rfl

theorem toLower_inserted {zs : List Char} (hzs : ∀ z ∈ zs, zeroWidth z = true) (as bs : List Char) :
    (icu.toLower (as ++ (zs ++ bs))).filter (fun c => !zeroWidth c) =
      (icu.toLower (as ++ bs)).filter (fun c => !zeroWidth c) := by
  induction zs with
  | nil =>
      rfl
  | cons z zs ih =>
      have hz : zeroWidth z = true := hzs z (by simp)
      have hrest : ∀ y ∈ zs, zeroWidth y = true := fun y hy => hzs y (List.mem_cons_of_mem z hy)
      rw [List.cons_append, h.toLower_zeroWidth as z _ hz, ih hrest]

/-- Apart from the zero-width characters, lower-casing gives the same. -/
theorem toLower_marked (as first : List Char) (insertions : List Insertion) :
    (icu.toLower (as ++ marked first insertions)).filter (fun c => !zeroWidth c) =
      (icu.toLower (as ++ plain first insertions)).filter (fun c => !zeroWidth c) := by
  induction insertions generalizing as first with
  | nil =>
      rfl
  | cons place insertions ih =>
      calc
        (icu.toLower (as ++ marked first (place :: insertions))).filter (fun c => !zeroWidth c)
            = (icu.toLower ((as ++ first) ++ (place.inserted ++ marked place.rest insertions))).filter
                (fun c => !zeroWidth c) := by rw [marked_cons, List.append_assoc]
        _ = (icu.toLower ((as ++ first) ++ marked place.rest insertions)).filter
              (fun c => !zeroWidth c) :=
              toLower_inserted h place.allZeroWidth _ _
        _ = (icu.toLower ((as ++ first) ++ plain place.rest insertions)).filter
              (fun c => !zeroWidth c) := ih _ _
        _ = (icu.toLower (as ++ plain first (place :: insertions))).filter
              (fun c => !zeroWidth c) := by rw [plain_cons, List.append_assoc]

end Passing

/-! ## The verdict -/

/-- The invisible stage deletes the zero-width characters too. -/
theorem visibleStage_filter (u : List Char) :
    visibleStage (u.filter (fun c => !zeroWidth c)) = visibleStage u := by
  simp only [visibleStage, List.filter_filter]
  congr 1
  funext c
  cases hc : invisible c.toNat <;> simp [visible, zeroWidth, hc]

/-- Zero-width characters put in at places that composition does not act across do not change the
verdict. -/
theorem textProcessing_inserted (ht : icu.Transcodes) (hc : icu.Classifies) (hn : icu.Normalizes)
    (h : PassesZeroWidth icu) {textN textN' : StdString} {first : List Char}
    {insertions : List Insertion} (hplain : icu.decodeUTF8 textN = plain first insertions)
    (hmarked : icu.decodeUTF8 textN' = marked first insertions)
    (hundisturbed : Undisturbed icu first insertions) :
    textProcessing icu textN' = textProcessing icu textN := by
  have hvisible : visibleStage (lowered icu textN') = visibleStage (lowered icu textN) := by
    rw [← visibleStage_filter, ← visibleStage_filter (lowered icu textN), lowered, lowered, hplain,
      hmarked, normalize_marked h, hundisturbed]
    exact congrArg visibleStage (toLower_marked h [] _ _)
  refine textProcessing_congr ht hc (fun F hF => ?_)
  rw [hF.normalizedText hn, hF.normalizedText hn, ← hF.hidden, hvisible, hF.hidden]

/-! ## ICU with one composition -/

/-- NFC on texts whose only composition is that of `y` and U+0301. -/
def composeAcute : List Char → List Char
  | 'y' :: '\u0301' :: cs => '\u00FD' :: composeAcute cs
  | c :: cs => c :: composeAcute cs
  | [] => []

def composingIcu : Icu where
  decodeUTF8 := Utf8.decode
  uIsWhitespace := SampleIcu.sampleWhitespace
  uIsalnum := fun c => SampleIcu.sampleAlnum c || c == 0xFD
  getNFCInstance := 0
  normalize := fun cs => (composeAcute cs, 0)
  toLower := fun cs => cs.map SampleIcu.sampleLower

theorem composing_transcodes : composingIcu.Transcodes :=
  ⟨Utf8.decode_encode⟩

theorem composing_normalizes : composingIcu.Normalizes where
  instance_ok := rfl
  normalize_ok := fun _ => rfl

theorem composing_classifies : composingIcu.Classifies where
  whitespace_ascii := SampleIcu.sample_classifies.whitespace_ascii
  alnum_ascii := by
    intro c hc
    have hne : (c == 0xFD) = false := by
      simp
      omega
    have hsample : SampleIcu.sampleAlnum c = _ := SampleIcu.sample_classifies.alnum_ascii c hc
    simp [composingIcu, hne, hsample]
  whitespace_cyrillic := SampleIcu.sample_classifies.whitespace_cyrillic
  whitespace_format := SampleIcu.sample_classifies.whitespace_format
  alnum_cyrillic := by
    intro c hlow hhigh
    have hsample : SampleIcu.sampleAlnum c = true :=
      SampleIcu.sample_classifies.alnum_cyrillic c hlow hhigh
    simp [composingIcu, hsample]
  alnum_whitespace := by
    intro c hc
    have hwhitespace : SampleIcu.sampleWhitespace c = true := hc
    have hsample : SampleIcu.sampleAlnum c = false :=
      SampleIcu.sample_classifies.alnum_whitespace c hc
    have hne : (c == 0xFD) = false := by
      have hcases := (SampleIcu.sampleWhitespace_iff c).1 hwhitespace
      simp
      omega
    simp [composingIcu, hne, hsample]

theorem composeAcute_cons {c : Char} {cs : List Char} (h : c = 'y' → cs.head? ≠ some '\u0301') :
    composeAcute (c :: cs) = c :: composeAcute cs := by
  rw [composeAcute]
  rintro ds rfl rfl
  exact h rfl rfl

theorem composeAcute_append {z : Char} (hy : z ≠ 'y') (hacute : z ≠ '\u0301') (as bs : List Char) :
    composeAcute (as ++ z :: bs) = composeAcute as ++ z :: composeAcute bs := by
  induction as using composeAcute.induct with
  | case1 cs ih =>
      simp [composeAcute, ih]
  | case2 c cs hcs ih =>
      have hplain : c = 'y' → cs.head? ≠ some '\u0301' := by
        intro hc hhead
        rcases List.head?_eq_some_iff.1 hhead with ⟨ds, hds⟩
        exact hcs ds hc hds
      have hmarked : c = 'y' → (cs ++ z :: bs).head? ≠ some '\u0301' := by
        cases cs with
        | nil =>
            intro _
            simpa using hacute
        | cons d ds =>
            exact hplain
      rw [List.cons_append, composeAcute_cons hmarked, composeAcute_cons hplain, ih]
      rfl
  | case3 =>
      exact composeAcute_cons (fun hz => absurd hz hy)

theorem zeroWidth_facts {z : Char} (h : zeroWidth z = true) :
    z ≠ 'y' ∧ z ≠ '\u0301' ∧ SampleIcu.sampleLower z = z := by
  have hinvisible : invisible z.toNat = true := by
    have hparts : (invisible z.toNat = true ∧ z.toNat ≠ 0x2028) ∧ z.toNat ≠ 0x2029 := by
      simpa [zeroWidth] using h
    exact hparts.1.1
  have hcases := (invisible_iff z.toNat).1 hinvisible
  refine ⟨?_, ?_, ?_⟩
  · rintro rfl
    exact absurd hinvisible (by decide)
  · rintro rfl
    exact absurd hinvisible (by decide)
  · unfold SampleIcu.sampleLower
    rw [if_neg (by omega), if_neg (by omega)]

theorem composing_passesZeroWidth : PassesZeroWidth composingIcu where
  normalize_nil := rfl
  normalize_zeroWidth := by
    intro as z bs hz
    rcases zeroWidth_facts hz with ⟨hy, hacute, _⟩
    exact composeAcute_append hy hacute as bs
  toLower_zeroWidth := by
    intro as z bs hz
    simp [composingIcu, (zeroWidth_facts hz).2.2, hz]

/-- U+200B in front of `rest`. -/
def zeroWidthSpaceBefore (rest : List Char) : Insertion where
  inserted := ['\u200B']
  rest := rest
  nonempty := by simp
  allZeroWidth := List.forall_mem_singleton.2 (by decide)

/-- U+200B in front of the `y`, where nothing is composed. -/
theorem textProcessing_inserted_sample :
    textProcessing composingIcu (Utf8.encode ['g', 'a', '\u200B', 'y', '\u0301']) =
      textProcessing composingIcu (Utf8.encode ['g', 'a', 'y', '\u0301']) := by
  have hplain : composingIcu.decodeUTF8 (Utf8.encode ['g', 'a', 'y', '\u0301']) =
      plain ['g', 'a'] [zeroWidthSpaceBefore ['y', '\u0301']] :=
    composing_transcodes.decode_encode _
  have hmarked : composingIcu.decodeUTF8 (Utf8.encode ['g', 'a', '\u200B', 'y', '\u0301']) =
      marked ['g', 'a'] [zeroWidthSpaceBefore ['y', '\u0301']] :=
    composing_transcodes.decode_encode _
  exact textProcessing_inserted composing_transcodes composing_classifies composing_normalizes
    composing_passesZeroWidth hplain hmarked rfl

/-- U+200B between the `y` and its acute accent: composed, the two are another letter, and held apart
they leave the word behind. -/
theorem textProcessing_uncomposed :
    let insertions := List.replicate 3 (zeroWidthSpaceBefore ['\u0301', ' ', 'g', 'a', 'y']) ++
      [zeroWidthSpaceBefore ['\u0301']]
    composingIcu.Transcodes ∧ composingIcu.Classifies ∧ composingIcu.Normalizes ∧
      PassesZeroWidth composingIcu ∧ (composingIcu.normalize ['y', '\u0301']).1 = ['\u00FD'] ∧
      composingIcu.isalnum '\u00FD' = true ∧ composingIcu.isalnum '\u0301' = false ∧
      textProcessing composingIcu (Utf8.encode (plain ['g', 'a', 'y'] insertions)) = false ∧
      textProcessing composingIcu (Utf8.encode (marked ['g', 'a', 'y'] insertions)) = true :=
  ⟨composing_transcodes, composing_classifies, composing_normalizes, composing_passesZeroWidth,
    rfl, by decide, by decide, by decide +kernel, by decide +kernel⟩

end HiddenCharacters
end ModerationService
