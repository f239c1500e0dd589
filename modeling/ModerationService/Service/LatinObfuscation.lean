import ModerationService.Service.Stretching

/-!
# LatinObfuscation — obfuscated Latin words are caught

A copy of a forbidden Latin word spells every letter in its own way: in either case, or by a key of
the Latin leetspeak map, and any number of times.  Copies are separated by whitespace, and invisible
code points are inserted anywhere.  The stages undo this in order: what any word measure sees of
such a text are the lower-cased copies (`measure_copies`), each of them holds the word once
(`Obfuscated.flaggedCount`), and none holds a Cyrillic letter.
-/

namespace ModerationService
namespace LatinObfuscation

open Library Library.Runs Library.Collapse Icu CodePoints TextProcessingConstants
open TextNormalization LeetspeakNormalization WordChecker TextProcessor LoopRefinement OnePass
open Locality Stretching

variable {icu : Icu}

/-! ## Obfuscated texts -/

def latinLower (c : Char) : Prop :=
  0x61 ≤ c.toNat ∧ c.toNat ≤ 0x7A

instance (c : Char) : Decidable (latinLower c) :=
  inferInstanceAs (Decidable (_ ∧ _))

def latinUpper (c : Char) : Char :=
  Char.ofNat (c.toNat - 0x20)

/-- One symbol for `c`, repeated: the letter in either case, or one key of the Latin map. -/
def Spelled (c : Char) (block : List Char) : Prop :=
  block ≠ [] ∧
    ((∀ d ∈ block, d = c ∨ d = latinUpper c) ∨
      ∃ key, lookup leetMapLatin key = some c ∧ ∀ d ∈ block, d = key)

/-- A copy of `w` with every letter spelled in its own way. -/
def Obfuscated (w copy : List Char) : Prop :=
  ∃ blocks, List.Forall₂ Spelled w blocks ∧ copy = blocks.flatten

/-- Whitespace other than LINE SEPARATOR and PARAGRAPH SEPARATOR. -/
def Blanks (icu : Icu) (blanks : List Char) : Prop :=
  ∀ c ∈ blanks, icu.isWhitespace c = true ∧ c.toNat ≠ 0x2028 ∧ c.toNat ≠ 0x2029

/-- `n` obfuscated copies of `w`, separated by non-empty blanks and followed by any. -/
inductive Copies (icu : Icu) (w : List Char) : Nat → List Char → Prop where
  | last {copy trail : List Char} :
      Obfuscated w copy → Blanks icu trail → Copies icu w 1 (copy ++ trail)
  | next {copy gap rest : List Char} {n : Nat} :
      Obfuscated w copy → gap ≠ [] → Blanks icu gap → Copies icu w n rest →
      Copies icu w (n + 1) (copy ++ gap ++ rest)

/-- `ys` is `xs` with invisible code points inserted anywhere. -/
inductive Inserted : List Char → List Char → Prop where
  | nil : Inserted [] []
  | keep (c : Char) {xs ys : List Char} : Inserted xs ys → Inserted (c :: xs) (c :: ys)
  | insert (d : Char) {xs ys : List Char} :
      invisible d.toNat = true → Inserted xs ys → Inserted xs (d :: ys)

/-- The code points of obfuscated texts. -/
def obfuscationAlphabet (icu : Icu) (c : Char) : Prop :=
  latinLetter c.toNat = true ∨ (∃ d, (c, d) ∈ leetMapLatin) ∨ icu.isWhitespace c = true ∨
    invisible c.toNat = true

/-- Letters are lower-cased, the other symbols are kept, and blanks stay blanks. -/
structure LowersLatin (icu : Icu) (f : Char → Char) : Prop
    extends ActsPointwise icu (obfuscationAlphabet icu) f where
  lower : ∀ c, latinLower c → f c = c ∧ f (latinUpper c) = c
  key : ∀ entry ∈ leetMapLatin, f entry.1 = entry.1
  hidden : ∀ c, invisible c.toNat = true → f c = c
  blank : ∀ blanks, Blanks icu blanks → Blanks icu (blanks.map f)

theorem visible_blank (h : icu.Classifies) {blanks : List Char} (hblanks : Blanks icu blanks) :
    ∀ c ∈ blanks, visible c = true := by
  intro c hc
  rcases hblanks c hc with ⟨hws, hline, hparagraph⟩
  rw [visible, Bool.not_eq_true', ← Bool.not_eq_true]
  intro hinvisible
  -- apart from the two separators, no invisible code point is whitespace
  have hcases := (invisible_iff c.toNat).1 hinvisible
  have hnot := h.whitespace_format c.toNat (by omega)
  have hws' : icu.uIsWhitespace c.toNat = true := hws
  rw [hws'] at hnot
  exact absurd hnot (by simp)

/-- No key of the Latin map is a letter, and every value is a lower-case one. -/
theorem leetMapLatin_entries : ∀ entry ∈ leetMapLatin,
    latinLetter entry.1.toNat = false ∧ leetChar false entry.1 = entry.2 ∧
      0x61 ≤ entry.2.toNat ∧ entry.2.toNat ≤ 0x7A := by
  decide

theorem leetChar_latinLower {c : Char} (h : latinLower c) : leetChar false c = c := by
  have hnone : lookup leetMapLatin c = none := by
    apply lookup_eq_none
    intro entry hentry heq
    have hkey := (leetMapLatin_entries entry hentry).1
    rw [heq] at hkey
    have hletter : latinLetter c.toNat = true := (latinLetter_iff c.toNat).2 (Or.inr h)
    rw [hletter] at hkey
    exact absurd hkey (by simp)
  simp [leetChar, hnone]

/-- After lower-casing, a spelled letter is one printable symbol, repeated. -/
theorem Spelled.symbol {f : Char → Char} (hf : LowersLatin icu f) {c : Char} {block : List Char}
    (hc : latinLower c) (h : Spelled c block) :
    ∃ d n, block.map f = List.replicate (n + 1) d ∧ leetChar false d = c ∧ d.toNat ≤ 0x7E := by
  rcases h with ⟨hne, hletters | ⟨key, hkey, hkeys⟩⟩
  -- the letter in either case becomes the letter, and a key stays what it is
  · have hlower : ∀ d ∈ block, f d = c := by
      intro d hd
      rcases hletters d hd with rfl | rfl
      · exact (hf.lower d hc).1
      · exact (hf.lower c hc).2
    rcases map_eq_replicate hne hlower with ⟨n, hn⟩
    exact ⟨c, n, hn, leetChar_latinLower hc, Nat.le_trans hc.2 (by decide)⟩
  · have hmem := mem_of_lookup hkey
    have hkept : ∀ d ∈ block, f d = key := by
      intro d hd
      rw [hkeys d hd]
      exact hf.key _ hmem
    rcases map_eq_replicate hne hkept with ⟨n, hn⟩
    have hprintable := keys_printable (key, c) (by simp [hmem])
    exact ⟨key, n, hn, (leetMapLatin_entries _ hmem).2.1, hprintable.2⟩

/-- The symbols of an obfuscated copy spell the word under the Latin map. -/
theorem Obfuscated.symbols {f : Char → Char} (hf : LowersLatin icu f) {w copy : List Char}
    (hw : ∀ c ∈ w, latinLower c) (h : Obfuscated w copy) :
    ∃ symbols, Stretch symbols (copy.map f) ∧ symbols.map (leetChar false) = w ∧
      ∀ d ∈ symbols, d.toNat ≤ 0x7E := by
  rcases h with ⟨blocks, hblocks, rfl⟩
  induction hblocks with
  | nil =>
      exact ⟨[], Stretch.nil, rfl, by simp⟩
  | cons hblock _ ih =>
      rcases hblock.symbol hf (hw _ (by simp)) with ⟨d, n, hn, hleet, hprintable⟩
      rcases ih (fun c hc => hw c (List.mem_cons_of_mem _ hc)) with ⟨symbols, hstretch, hmap, hall⟩
      refine ⟨d :: symbols, ?_, ?_, ?_⟩
      · rw [List.flatten_cons, List.map_append, hn]
        exact Stretch.cons d n hstretch
      · rw [List.map_cons, hleet, hmap]
      · intro e he
        rcases List.mem_cons.1 he with rfl | he
        · exact hprintable
        · exact hall e he

theorem visibleStage_inserted {f : Char → Char} (hf : LowersLatin icu f) {clean text : List Char}
    (h : Inserted clean text) (hvisible : ∀ c ∈ clean, visible (f c) = true) :
    visibleStage (text.map f) = clean.map f := by
  induction h with
  | nil =>
      rfl
  | keep c _ ih =>
      have hc := hvisible c (by simp)
      rw [List.map_cons, List.map_cons, visibleStage, List.filter_cons_of_pos hc]
      exact congrArg (List.cons (f c)) (ih (fun d hd => hvisible d (List.mem_cons_of_mem c hd)))
  | insert d hd _ ih =>
      have hdrop : ¬ visible (f d) = true := by
        simp [hf.hidden d hd, visible, hd]
      rw [List.map_cons, visibleStage, List.filter_cons_of_neg hdrop]
      exact ih hvisible

section Copies

variable {f : Char → Char} {w : List Char}

theorem Blanks.mapped (hc : icu.Classifies) (hf : LowersLatin icu f) {blanks : List Char}
    (h : Blanks icu blanks) :
    ∀ c ∈ blanks.map f, icu.isWhitespace c = true ∧ visible c = true := by
  intro c hmem
  have hblanks := hf.blank blanks h
  exact ⟨(hblanks c hmem).1, visible_blank hc hblanks c hmem⟩

/-- A word measure counts the copies. -/
theorem measure_copies {F : List Char → Nat} (hF : WordMeasure icu F) (hc : icu.Classifies)
    (hf : LowersLatin icu f) {k : Nat} (hcopy : ∀ copy, Obfuscated w copy → F (copy.map f) = k)
    {n : Nat} {clean : List Char} (h : Copies icu w n clean) : F (clean.map f) = n * k := by
  induction h with
  | last hcopy' htrail =>
      have hblanks := fun c hc' => (htrail.mapped hc hf c hc').1
      rw [List.map_append, hF.append_blanks hblanks, hcopy _ hcopy', Nat.one_mul]
  | next hcopy' hne hgap _ ih =>
      rw [List.map_append, List.map_append, hF.gap (by simpa using hne) (hgap.mapped hc hf),
        hcopy _ hcopy', ih, Nat.succ_mul, Nat.add_comm]

/-- What holds of every code point of a copy and of a blank holds of the whole clean text. -/
theorem Copies.forall_mem {P : Char → Prop} (hcopy : ∀ copy, Obfuscated w copy → ∀ c ∈ copy, P c)
    (hblank : ∀ blanks, Blanks icu blanks → ∀ c ∈ blanks, P c) {n : Nat} {clean : List Char}
    (h : Copies icu w n clean) : ∀ c ∈ clean, P c := by
  induction h with
  | last hcopy' htrail =>
      intro c hmem
      rcases List.mem_append.1 hmem with hmem | hmem
      · exact hcopy _ hcopy' c hmem
      · exact hblank _ htrail c hmem
  | next hcopy' _ hgap _ ih =>
      intro c hmem
      rcases List.mem_append.1 hmem with hmem | hmem
      · rcases List.mem_append.1 hmem with hmem | hmem
        · exact hcopy _ hcopy' c hmem
        · exact hblank _ hgap c hmem
      · exact ih c hmem

/-- Everything in the clean text is visible once it is lower-cased. -/
theorem Copies.visible (hc : icu.Classifies) (hf : LowersLatin icu f)
    (hw : ∀ c ∈ w, latinLower c) {n : Nat} {clean : List Char} (h : Copies icu w n clean) :
    ∀ c ∈ clean, CodePoints.visible (f c) = true := by
  refine Copies.forall_mem ?_ ?_ h
  · intro copy hcopy c hmem
    rcases hcopy.symbols hf hw with ⟨symbols, hstretch, _, hprintable⟩
    exact visible_of_printable (hprintable (f c) (hstretch.mem (List.mem_map_of_mem hmem)))
  · intro blanks hblanks c hmem
    exact (hblanks.mapped hc hf (f c) (List.mem_map_of_mem hmem)).2

theorem Obfuscated.cyrillicCount (hf : LowersLatin icu f) (hw : ∀ c ∈ w, latinLower c)
    {copy : List Char} (h : Obfuscated w copy) :
    Locality.cyrillicCount icu (copy.map f) = 0 := by
  rcases h.symbols hf hw with ⟨symbols, hstretch, _, hprintable⟩
  apply cyrillicCount_eq_zero
  intro c hmem
  have hlow := hprintable c (hstretch.mem hmem)
  rw [← Bool.not_eq_true]
  intro hcyrillic
  have hblock := (cyrillicLetter_iff c.toNat).1 hcyrillic
  omega

theorem Obfuscated.flaggedCount (hc : icu.Classifies) (hf : LowersLatin icu f)
    (hforbidden : Utf8.encode w ∈ forbiddenWords) (hw : ∀ c ∈ w, latinLower c)
    (hchain : w.IsChain (· ≠ ·)) {copy : List Char} (h : Obfuscated w copy) :
    Locality.flaggedCount icu false (copy.map f) = 1 := by
  rcases h.symbols hf hw with ⟨symbols, hstretch, hmap, hprintable⟩
  have hne : symbols ≠ [] := by
    rintro rfl
    rw [← hmap] at hforbidden
    exact absurd hforbidden (by decide)
  have hlettered : ∀ d ∈ symbols, lettered icu false d = true := by
    intro d hd
    -- the image of a symbol is a letter of `w`, hence alphanumeric
    have hletter : latinLower (leetChar false d) := hw _ (hmap ▸ List.mem_map_of_mem hd)
    have halnum := hc.alnum_ascii (leetChar false d).toNat (Nat.lt_of_le_of_lt hletter.2 (by decide))
    refine halnum.trans ?_
    rw [decide_eq_true_iff]
    exact Or.inr (Or.inr hletter)
  -- adjacent symbols have different images, so they differ
  have hchain' : symbols.IsChain (· ≠ ·) := by
    rw [← hmap] at hchain
    exact isChain_of_map hchain
  have htokens := tokensUnder_word hc hstretch hne hlettered
    (fun d hd => visible_of_printable (hprintable d hd)) hchain'
  rw [Locality.flaggedCount, htokens, hmap]
  simp [forbiddenCount, hforbidden]

end Copies

theorem latinLetter_upper {c : Char} (h : latinLower c) :
    latinLetter (latinUpper c).toNat = true := by
  have hall : ∀ n < 0x7B, 0x61 ≤ n → latinLetter (Char.ofNat (n - 0x20)).toNat = true := by
    decide
  exact hall c.toNat (Nat.lt_succ_of_le h.2) h.1

/-- The code points of an obfuscated text are those ICU is assumed to act on letter by letter. -/
theorem Copies.alphabet {w : List Char} (hw : ∀ c ∈ w, latinLower c) {n : Nat} {clean : List Char}
    (h : Copies icu w n clean) : ∀ c ∈ clean, obfuscationAlphabet icu c := by
  have hspelled : ∀ c block, latinLower c → Spelled c block →
      ∀ d ∈ block, obfuscationAlphabet icu d := by
    intro c block hc hblock d hd
    rcases hblock.2 with hletters | ⟨key, hkey, hkeys⟩
    · left
      rcases hletters d hd with rfl | rfl
      · exact (latinLetter_iff _).2 (Or.inr hc)
      · exact latinLetter_upper hc
    · right
      left
      rw [hkeys d hd]
      exact ⟨c, mem_of_lookup hkey⟩
  have hobfuscated : ∀ copy, Obfuscated w copy → ∀ d ∈ copy, obfuscationAlphabet icu d := by
    clear h
    -- a copy is spelled block by block
    rintro copy ⟨blocks, hblocks, rfl⟩
    induction hblocks with
    | nil =>
        simp
    | cons hblock _ ih =>
        intro d hd
        rcases List.mem_append.1 (List.flatten_cons ▸ hd) with hd | hd
        · exact hspelled _ _ (hw _ (by simp)) hblock d hd
        · exact ih (fun c hc => hw c (List.mem_cons_of_mem _ hc)) d hd
  have hblank : ∀ blanks, Blanks icu blanks → ∀ d ∈ blanks, obfuscationAlphabet icu d := by
    intro blanks hblanks d hd
    exact Or.inr (Or.inr (Or.inl (hblanks d hd).1))
  exact Copies.forall_mem hobfuscated hblank h

theorem inserted_alphabet {clean text : List Char} (h : Inserted clean text)
    (hclean : ∀ c ∈ clean, obfuscationAlphabet icu c) :
    ∀ c ∈ text, obfuscationAlphabet icu c := by
  induction h with
  | nil =>
      exact hclean
  | keep c _ ih =>
      intro d hd
      rcases List.mem_cons.1 hd with rfl | hd
      · exact hclean d (by simp)
      · exact ih (fun e he => hclean e (List.mem_cons_of_mem c he)) d hd
  | insert d hinvisible _ ih =>
      intro e he
      rcases List.mem_cons.1 he with rfl | he
      · exact Or.inr (Or.inr (Or.inr hinvisible))
      · exact ih hclean e he

/-- Obfuscated Latin words are always caught. -/
theorem textProcessing_obfuscated (ht : icu.Transcodes) (hc : icu.Classifies) {f : Char → Char}
    (hf : LowersLatin icu f) {w : List Char} (hforbidden : Utf8.encode w ∈ forbiddenWords)
    (hw : ∀ c ∈ w, latinLower c) (hchain : w.IsChain (· ≠ ·)) {n : Nat} (hn : 4 ≤ n)
    {lead clean text : List Char} (hlead : Blanks icu lead) (hcopies : Copies icu w n clean)
    (hinserted : Inserted (lead ++ clean) text) :
    textProcessing icu (Utf8.encode text) = true := by
  have halphabet : ∀ c ∈ lead ++ clean, obfuscationAlphabet icu c := by
    intro c hmem
    rcases List.mem_append.1 hmem with hmem | hmem
    · exact Or.inr (Or.inr (Or.inl (hlead c hmem).1))
    · exact hcopies.alphabet hw c hmem
  have hvisible : ∀ c ∈ lead ++ clean, visible (f c) = true := by
    intro c hmem
    rcases List.mem_append.1 hmem with hmem | hmem
    · exact (hlead.mapped hc hf (f c) (List.mem_map_of_mem hmem)).2
    · exact hcopies.visible hc hf hw c hmem
  -- what any word measure sees of the text: the lower-cased copies
  have hmeasure : ∀ F, WordMeasure icu F →
      F (normalizedText icu (Utf8.encode text)) = F (clean.map f) := by
    intro F hF
    calc
      F (normalizedText icu (Utf8.encode text))
          = F (text.map f) := by
            rw [normalizedText_pointwise ht hf.toActsPointwise
              (inserted_alphabet hinserted halphabet), hF.trimmed]
      _ = F ((lead ++ clean).map f) := by
            rw [← hF.hidden, visibleStage_inserted hf hinserted hvisible]
      _ = F (clean.map f) := by
            rw [List.map_append,
              hF.blanks_append (fun c hmem => (hlead.mapped hc hf c hmem).1)]
  have hcyrillic : cyrillicCount icu (normalizedText icu (Utf8.encode text)) = 0 := by
    rw [hmeasure _ (wordMeasure_cyrillicCount hc)]
    exact measure_copies (wordMeasure_cyrillicCount hc) hc hf
      (fun _ h => h.cyrillicCount hf hw) hcopies
  have hflagged : flaggedCount icu false (normalizedText icu (Utf8.encode text)) = n := by
    rw [hmeasure _ (wordMeasure_flaggedCount hc false),
      measure_copies (wordMeasure_flaggedCount hc false) hc hf
        (fun _ h => h.flaggedCount hc hf hforbidden hw hchain) hcopies, Nat.mul_one]
  have horientation : orientation icu (normalizedText icu (Utf8.encode text)) = false := by
    rw [orientation_eq_counts, hcyrillic]
    simp
  rw [textProcessing_eq_verdict ht, verdict_eq_flaggedCount, horientation, hflagged,
    decide_eq_true_iff]
  exact hn

theorem inserted_visibleStage (text : List Char) : Inserted (visibleStage text) text := by
  induction text with
  | nil =>
      exact Inserted.nil
  | cons c text ih =>
      cases hc : visible c with
      | true =>
          rw [visibleStage, List.filter_cons_of_pos hc]
          exact Inserted.keep c ih
      | false =>
          rw [visibleStage, List.filter_cons_of_neg (by simp [hc])]
          exact Inserted.insert c (by simpa [visible] using hc) ih

theorem sampleLower_of_blank {c : Char} (hc : SampleIcu.sampleWhitespace c.toNat = true) :
    SampleIcu.sampleLower c = c := by
  have hcases := (SampleIcu.sampleWhitespace_iff c.toNat).1 hc
  unfold SampleIcu.sampleLower
  rw [if_neg (by omega), if_neg (by omega)]

theorem sample_lowersLatin : LowersLatin SampleIcu.sampleIcu SampleIcu.sampleLower where
  toActsPointwise := sample_actsPointwise _
  lower := by
    intro c hc
    have hall : ∀ n < 0x7B, 0x61 ≤ n → SampleIcu.sampleLower (Char.ofNat n) = Char.ofNat n ∧
        SampleIcu.sampleLower (Char.ofNat (n - 0x20)) = Char.ofNat n := by
      decide
    have h := hall c.toNat (Nat.lt_succ_of_le hc.2) hc.1
    rwa [Char.ofNat_toNat] at h
  key := by
    decide
  hidden := by
    intro c hc
    have hcases := (invisible_iff c.toNat).1 hc
    unfold SampleIcu.sampleLower
    rw [if_neg (by omega), if_neg (by omega)]
  blank := by
    intro blanks hblanks c hc
    rcases List.mem_map.1 hc with ⟨d, hd, rfl⟩
    rw [sampleLower_of_blank (hblanks d hd).1]
    exact hblanks d hd

/-- Mixed case, keys, repetition, an EM SPACE, and invisible characters inside words and blanks. -/
theorem textProcessing_obfuscated_sample :
    textProcessing SampleIcu.sampleIcu
      (Utf8.encode ['\t', 'G', 'g', '\u200B', '&', 'Y', ' ', 'g', '4', '4', 'y', '\u2003', '\u2060',
        '9', 'A', 'y', ' ', ' ', 'g', 'a', 'a', 'y', '\u00AD']) = true := by
  have hspelled : ∀ c block, block ≠ [] → (∀ d ∈ block, d = c ∨ d = latinUpper c) →
      Spelled c block :=
    fun _ _ hne h => ⟨hne, Or.inl h⟩
  have hkeyed : ∀ c key n, lookup leetMapLatin key = some c →
      Spelled c (List.replicate (n + 1) key) :=
    fun _ key _ h => ⟨by simp, Or.inr ⟨key, h, fun _ hd => List.eq_of_mem_replicate hd⟩⟩
  have hplain : ∀ c, Spelled c [c] :=
    fun c => hspelled c [c] (by simp) fun _ hd => Or.inl (List.mem_singleton.1 hd)
  have hmixed : Spelled 'g' ['G', 'g'] :=
    hspelled _ _ (by simp) (List.forall_iff_forall_mem.1 (by decide))
  have hcapital : ∀ c, Spelled c [latinUpper c] :=
    fun c => hspelled c _ (by simp) fun _ hd => Or.inr (List.mem_singleton.1 hd)
  have hupper : latinUpper 'a' = 'A' ∧ latinUpper 'y' = 'Y' := by decide +kernel
  have hampersand : lookup leetMapLatin '&' = some 'a' := by decide +kernel
  have hfour : lookup leetMapLatin '4' = some 'a' := by decide +kernel
  have hnine : lookup leetMapLatin '9' = some 'g' := by decide +kernel
  have hfirst : Obfuscated wordGay ['G', 'g', '&', 'Y'] :=
    ⟨[['G', 'g'], ['&'], ['Y']],
      .cons hmixed (.cons (hkeyed 'a' '&' 0 hampersand)
        (.cons (hupper.2 ▸ hcapital 'y') .nil)), rfl⟩
  have hsecond : Obfuscated wordGay ['g', '4', '4', 'y'] :=
    ⟨[['g'], ['4', '4'], ['y']],
      .cons (hplain 'g') (.cons (hkeyed 'a' '4' 1 hfour) (.cons (hplain 'y') .nil)), rfl⟩
  have hthird : Obfuscated wordGay ['9', 'A', 'y'] :=
    ⟨[['9'], ['A'], ['y']],
      .cons (hkeyed 'g' '9' 0 hnine) (.cons (hupper.1 ▸ hcapital 'a')
        (.cons (hplain 'y') .nil)), rfl⟩
  have hfourth : Obfuscated wordGay ['g', 'a', 'a', 'y'] :=
    ⟨[['g'], ['a', 'a'], ['y']],
      .cons (hplain 'g') (.cons (hspelled _ _ (by simp) (by simp)) (.cons (hplain 'y') .nil)), rfl⟩
  have hblank : Blanks SampleIcu.sampleIcu ['\t', ' ', '\u2003'] :=
    List.forall_iff_forall_mem.1 (by decide)
  have hblanks : ∀ blanks, blanks ⊆ ['\t', ' ', '\u2003'] → Blanks SampleIcu.sampleIcu blanks :=
    fun _ hsub c hc => hblank c (hsub hc)
  have hcopies : Copies SampleIcu.sampleIcu wordGay 4
      (['G', 'g', '&', 'Y'] ++ [' '] ++ (['g', '4', '4', 'y'] ++ ['\u2003'] ++
        (['9', 'A', 'y'] ++ [' ', ' '] ++ (['g', 'a', 'a', 'y'] ++ [])))) :=
    .next hfirst (by simp) (hblanks _ (by simp))
      (.next hsecond (by simp) (hblanks _ (by simp))
        (.next hthird (by simp) (hblanks _ (by simp))
          (.last hfourth (hblanks _ (by simp)))))
  have hlead : Blanks SampleIcu.sampleIcu ['\t'] := hblanks _ (by simp)
  have hclean : ∀ text, visibleStage text = ['\t', 'G', 'g', '&', 'Y', ' ', 'g', '4', '4', 'y',
      '\u2003', '9', 'A', 'y', ' ', ' ', 'g', 'a', 'a', 'y'] → Inserted (['\t'] ++ _) text :=
    fun text h => h ▸ inserted_visibleStage text
  exact textProcessing_obfuscated SampleIcu.sample_transcodes SampleIcu.sample_classifies
    sample_lowersLatin (by decide) (List.forall_iff_forall_mem.1 (by decide)) (by decide)
    (Nat.le_refl 4) hlead hcopies (hclean _ (by decide +kernel))

end LatinObfuscation
end ModerationService
