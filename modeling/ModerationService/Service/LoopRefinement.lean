import ModerationService.SampleIcu
import ModerationService.Service.CodePoints

/-!
# LoopRefinement — the UTF-16 loops compute the list functions

For each of the six loops: its body follows the code points of the text (`follows_*`), so the loop
is a fold over them, and the fold is the list function of `CodePoints` (`*_eq`).  `StagesRefine`
collects what the loops do on a byte string, and `textProcessing_eq_verdict` composes the stages.
-/

namespace ModerationService
namespace LoopRefinement

open Library Library.Runs Library.Collapse Icu CodePoints TextProcessingConstants
open TextNormalization LeetspeakNormalization WordChecker TextProcessor

variable {icu : Icu}

/-! ## Every loop body follows the code points -/

/-- A body that acts on the code point read and ends with the surrogate step. -/
theorem follows_char {σ : Type} (step : UChar32 → σ → σ) (cs : List Char) :
    ForLoop.Follows Utf16.width cs
      (fun i s => (skipTrail (Utf16.encode cs) i, step (Utf16.char32At (Utf16.encode cs) i) s))
      (fun s c => step c.toNat s) := by
  rintro pre c post s rfl
  have hskip : skipTrail (Utf16.encode (pre ++ c :: post)) (ForLoop.extent Utf16.width pre) =
      ForLoop.extent Utf16.width pre + (Utf16.width c - 1) :=
    Utf16.skipTrail_encode pre c post
  simp only [Utf16.char32At_encode, hskip]

theorem follows_whitespace (icu : Icu) (cs : List Char) :
    ForLoop.Follows Utf16.width cs (whitespaceBody icu (Utf16.encode cs))
      (fun s c => whitespaceStep icu c.toNat s) :=
  follows_char (whitespaceStep icu) cs

theorem follows_repetition (cs : List Char) :
    ForLoop.Follows Utf16.width cs (repetitionBody (Utf16.encode cs))
      (fun s c => repetitionStep c.toNat s) :=
  follows_char repetitionStep cs

theorem follows_leetspeak (isCyrillic : Bool) (cs : List Char) :
    ForLoop.Follows Utf16.width cs (leetspeakBody isCyrillic (Utf16.encode cs))
      (fun result c => append result (normalized isCyrillic c.toNat)) :=
  follows_char (fun character result => append result (normalized isCyrillic character)) cs

theorem follows_count (cs : List Char) :
    ForLoop.Follows Utf16.width cs (countBody (Utf16.encode cs))
      (fun s c => countStep c.toNat s) :=
  follows_char countStep cs

/-- The early `continue` is harmless: what it skips takes a single code unit. -/
theorem follows_invisible (cs : List Char) :
    ForLoop.Follows Utf16.width cs (invisibleBody (Utf16.encode cs))
      (fun result c => if visible c then append result c.toNat else result) := by
  rintro pre c post result rfl
  have hskip : skipTrail (Utf16.encode (pre ++ c :: post)) (ForLoop.extent Utf16.width pre) =
      ForLoop.extent Utf16.width pre + (Utf16.width c - 1) :=
    Utf16.skipTrail_encode pre c post
  simp only [invisibleBody, Utf16.char32At_encode, hskip, visible]
  -- skipping the surrogate step moves the index wrongly only for a code point of two units
  by_cases hinv : invisible c.toNat = true
  · have hwidth : Utf16.width c = 1 := Utf16.width_of_bmp (invisible_bmp hinv)
    simp [hinv, hwidth]
  · simp [hinv]

/-- The bounds check of `Tokenize` never fails: a lead surrogate is never the last unit. -/
theorem follows_tokenize (icu : Icu) (cs : List Char) :
    ForLoop.Follows Utf16.width cs (tokenizeBody icu (Utf16.encode cs))
      (fun s c => tokenizeStep icu c.toNat s) := by
  rintro pre c post s rfl
  have hlead := Utf16.isLead_charAt_encode pre c post
  have hlen : (Utf16.encode (pre ++ c :: post)).length =
      ForLoop.extent Utf16.width pre + (Utf16.width c + ForLoop.extent Utf16.width post) := by
    rw [Utf16.length_encode, ForLoop.extent_append, ForLoop.extent_cons]
  have hpos := Utf16.width_pos c
  have hle := Utf16.width_le_two c
  simp only [tokenizeBody, Utf16.char32At_encode, hlead, hlen]
  -- after a lead there is at least the trail unit, so the bounds check holds
  by_cases hwidth : Utf16.width c = 2
  · have hbound : ForLoop.extent Utf16.width pre + 1 <
        ForLoop.extent Utf16.width pre + (2 + ForLoop.extent Utf16.width post) := by
      omega
    simp [hwidth, hbound]
  · have hone : Utf16.width c = 1 := by
      omega
    simp [hone]

/-! ## The folds are the list functions -/

theorem foldl_visible (cs acc : List Char) :
    cs.foldl (fun result c => if visible c then append result c.toNat else result)
        (Utf16.encode acc) =
      Utf16.encode (acc ++ visibleStage cs) := by
  induction cs generalizing acc with
  | nil =>
      simp [visibleStage]
  | cons c cs ih =>
      cases hc : visible c with
      | false =>
          rw [List.foldl_cons, hc, if_neg (by simp), ih]
          simp [visibleStage, hc]
      | true =>
          rw [List.foldl_cons, hc, if_pos rfl, append_encode, ih]
          simp [visibleStage, hc]

theorem foldl_whitespaceStep (cs acc : List Char) (prev_space : Bool) :
    (cs.foldl (fun s c => whitespaceStep icu c.toNat s) ⟨Utf16.encode acc, prev_space⟩).result =
      Utf16.encode (acc ++ squeeze icu.isWhitespace ' ' (prev_space || acc.isEmpty) cs) := by
  induction cs generalizing acc prev_space with
  | nil =>
      simp [squeeze]
  | cons c cs ih =>
      -- `result.length() > 0` asks whether any code point has been kept
      have hempty : decide (0 < (Utf16.encode acc).length) = !acc.isEmpty := by
        cases acc with
        | nil =>
            rfl
        | cons d ds =>
            have hpos : 0 < (Utf16.encode (d :: ds)).length :=
              List.length_pos_of_ne_nil (by simp [Utf16.encodeChar_ne_nil])
            simp [hpos, -Utf16.encode_cons]
      cases hws : icu.isWhitespace c with
      | false =>
          have hstep : whitespaceStep icu c.toNat ⟨Utf16.encode acc, prev_space⟩ =
              ⟨Utf16.encode (acc ++ [c]), false⟩ := by
            have hws' : icu.uIsWhitespace c.toNat = false := hws
            simp [whitespaceStep, hws', append_encode]
          have hnonempty : (acc ++ [c]).isEmpty = false := by
            cases acc <;> rfl
          rw [List.foldl_cons, hstep, ih, squeeze_other hws, hnonempty]
          simp
      | true =>
          have hws' : icu.uIsWhitespace c.toNat = true := hws
          cases hskip : prev_space || acc.isEmpty with
          | true =>
              -- the accumulator stays: a blank was just written, or nothing was
              have hstep : whitespaceStep icu c.toNat ⟨Utf16.encode acc, prev_space⟩ =
                  ⟨Utf16.encode acc, prev_space⟩ := by
                simp only [whitespaceStep, hws', hempty, if_true]
                have hnot : (!prev_space && !acc.isEmpty) = false := by
                  rw [← Bool.not_or, hskip]
                  rfl
                simp [hnot]
              rw [List.foldl_cons, hstep, ih, hskip, squeeze_skipped hws]
          | false =>
              have hnot : (!prev_space && !acc.isEmpty) = true := by
                rw [← Bool.not_or, hskip]
                rfl
              have hstep : whitespaceStep icu c.toNat ⟨Utf16.encode acc, prev_space⟩ =
                  ⟨Utf16.encode (acc ++ [' ']), true⟩ := by
                simp only [whitespaceStep, hws', hempty, hnot, if_true]
                exact congrArg (fun r => WhitespaceState.mk r true) (append_encode acc ' ')
              rw [List.foldl_cons, hstep, ih, squeeze_blank hws, Bool.true_or]
              simp

theorem foldl_repetitionStep (cs acc : List Char) (prev : Char) :
    (cs.foldl (fun s c => repetitionStep c.toNat s) ⟨Utf16.encode acc, prev.toNat⟩).result =
      Utf16.encode (acc ++ dropRepeats prev cs) := by
  induction cs generalizing acc prev with
  | nil =>
      simp [dropRepeats]
  | cons c cs ih =>
      by_cases hc : c = prev
      · have hstep : repetitionStep c.toNat ⟨Utf16.encode acc, prev.toNat⟩ =
            ⟨Utf16.encode acc, prev.toNat⟩ := by
          simp [repetitionStep, hc]
        rw [List.foldl_cons, hstep, ih]
        simp [dropRepeats, hc]
      · have hstep : repetitionStep c.toNat ⟨Utf16.encode acc, prev.toNat⟩ =
            ⟨Utf16.encode (acc ++ [c]), c.toNat⟩ := by
          have hne : c.toNat ≠ prev.toNat := fun h => hc (toNat_inj.1 h)
          simp [repetitionStep, hne, append_encode]
        rw [List.foldl_cons, hstep, ih]
        simp [dropRepeats, hc]

theorem foldl_leetspeak (isCyrillic : Bool) (cs acc : List Char) :
    cs.foldl (fun result c => append result (normalized isCyrillic c.toNat)) (Utf16.encode acc) =
      Utf16.encode (acc ++ leetStage isCyrillic cs) := by
  induction cs generalizing acc with
  | nil =>
      simp [leetStage]
  | cons c cs ih =>
      rw [List.foldl_cons, normalized_toNat, append_encode, ih]
      simp [leetStage]

theorem foldl_countStep (cs : List Char) (a b : Nat) :
    cs.foldl (fun s c => countStep c.toNat s) ⟨a, b⟩ =
      ⟨a + cs.countP cyrillic, b + cs.countP latin⟩ := by
  induction cs generalizing a b with
  | nil =>
      rfl
  | cons c cs ih =>
      rw [List.foldl_cons]
      cases hc : cyrillic c with
      | true =>
          -- the `else if` never sees a Cyrillic letter, and none of them is Latin
          have hl := latin_of_cyrillic hc
          have hstep : countStep c.toNat ⟨a, b⟩ = ⟨a + 1, b⟩ := by
            have hc' : cyrillicLetter c.toNat = true := hc
            simp [countStep, hc']
          rw [hstep, ih]
          simp [hc, hl]
          omega
      | false =>
          have hc' : cyrillicLetter c.toNat = false := hc
          cases hl : latin c with
          | true =>
              have hl' : latinLetter c.toNat = true := hl
              have hstep : countStep c.toNat ⟨a, b⟩ = ⟨a, b + 1⟩ := by
                simp [countStep, hc', hl']
              rw [hstep, ih]
              simp [hc, hl]
              omega
          | false =>
              have hl' : latinLetter c.toNat = false := hl
              have hstep : countStep c.toNat ⟨a, b⟩ = ⟨a, b⟩ := by
                simp [countStep, hc', hl']
              rw [hstep, ih]
              simp [hc, hl]

/-- The word being built is a run that the rest of the text may still extend. -/
theorem foldl_tokenizeStep (cs word : List Char) (words : List StdString)
    (hword : ∀ c ∈ word, icu.isalnum c = true) :
    (pushWord (cs.foldl (fun s c => tokenizeStep icu c.toNat s) ⟨words, Utf8.encode word⟩)).tokens =
      words ++ (runs icu.isalnum (word ++ cs)).map Utf8.encode := by
  -- pushing the word lists its only run
  have hpush : ∀ words' : List StdString, pushWord ⟨words', Utf8.encode word⟩ =
      ⟨words' ++ (runs icu.isalnum word).map Utf8.encode, []⟩ := by
    intro words'
    rw [runs_of_all hword]
    cases word with
    | nil =>
        simp [pushWord]
    | cons d ds =>
        simp [pushWord, String.utf8EncodeChar_ne_nil]
  induction cs generalizing word words with
  | nil =>
      simp [hpush]
  | cons c cs ih =>
      rw [List.foldl_cons]
      cases hc : icu.isalnum c with
      | true =>
          have hc' : icu.uIsalnum c.toNat = true := hc
          have hstep : tokenizeStep icu c.toNat ⟨words, Utf8.encode word⟩ =
              ⟨words, Utf8.encode (word ++ [c])⟩ := by
            have hchar : toUTF8String (append [] c.toNat) = Utf8.encode [c] := by
              simpa [append_char] using toUTF8String_encode [c]
            simp [tokenizeStep, hc', hchar]
          -- the letter extends the word
          have hword' : ∀ d ∈ word ++ [c], icu.isalnum d = true := by
            intro d hd
            rcases List.mem_append.1 hd with hd | hd
            · exact hword d hd
            · simpa [List.mem_singleton.1 hd] using hc
          rw [hstep, ih (word ++ [c]) words hword']
          · simp
          · intro words'
            rw [runs_of_all hword']
            simp [pushWord, String.utf8EncodeChar_ne_nil]
      | false =>
          have hc' : icu.uIsalnum c.toNat = false := hc
          -- anything else ends it: the run is pushed, and the rest starts with an empty word
          have hstep : tokenizeStep icu c.toNat ⟨words, Utf8.encode word⟩ =
              ⟨words ++ (runs icu.isalnum word).map Utf8.encode, Utf8.encode []⟩ := by
            simp [tokenizeStep, hc', hpush]
          rw [hstep, ih [] _ (by simp) (by simp [pushWord]), runs_append_sep hc]
          simp

/-! ## The stages on a byte string -/

theorem invisibleLoop_eq (cs : List Char) :
    ForLoop.run (Utf16.encode cs).length (invisibleBody (Utf16.encode cs)) [] =
      Utf16.encode (visibleStage cs) := by
  rw [Utf16.run_encode (follows_invisible cs)]
  exact foldl_visible cs []

theorem whitespaceLoop_eq (cs : List Char) :
    (ForLoop.run (Utf16.encode cs).length (whitespaceBody icu (Utf16.encode cs)) ⟨[], false⟩).result =
      Utf16.encode (whitespaceStage icu cs) := by
  rw [Utf16.run_encode (follows_whitespace icu cs)]
  exact foldl_whitespaceStep cs [] false

/-- The sentinel of the source, `0`, is the code point U+0000. -/
theorem repetitionLoop_eq (cs : List Char) :
    (ForLoop.run (Utf16.encode cs).length (repetitionBody (Utf16.encode cs)) ⟨[], 0⟩).result =
      Utf16.encode (repetitionStage cs) := by
  rw [Utf16.run_encode (follows_repetition cs)]
  exact foldl_repetitionStep cs [] null

theorem leetspeakLoop_eq (isCyrillic : Bool) (cs : List Char) :
    ForLoop.run (Utf16.encode cs).length (leetspeakBody isCyrillic (Utf16.encode cs)) [] =
      Utf16.encode (leetStage isCyrillic cs) := by
  rw [Utf16.run_encode (follows_leetspeak isCyrillic cs)]
  exact foldl_leetspeak isCyrillic cs []

theorem countLoop_eq (cs : List Char) :
    ForLoop.run (Utf16.encode cs).length (countBody (Utf16.encode cs)) ⟨0, 0⟩ =
      ⟨cs.countP cyrillic, cs.countP latin⟩ := by
  rw [Utf16.run_encode (follows_count cs), foldl_countStep]
  simp

theorem tokenizeLoop_eq (cs : List Char) :
    (pushWord (ForLoop.run (Utf16.encode cs).length (tokenizeBody icu (Utf16.encode cs))
        ⟨[], []⟩)).tokens =
      (tokens icu cs).map Utf8.encode := by
  rw [Utf16.run_encode (follows_tokenize icu cs)]
  exact foldl_tokenizeStep cs [] [] (by simp)

theorem textNormalization_eq (textN : StdString) :
    textNormalization icu textN = Utf8.encode (normalizedText icu textN) := by
  simp only [textNormalization, normalizedText, decode_fromUTF8]
  split_ifs
  · rfl
  · rfl
  · rw [trim_encode, toUTF8String_encode]

theorem invisibleCharacterNormalization_eq (textN : StdString) :
    invisibleCharacterNormalization icu textN =
      Utf8.encode (visibleStage (icu.decodeUTF8 textN)) := by
  rw [invisibleCharacterNormalization, fromUTF8, invisibleLoop_eq, toUTF8String_encode]

theorem whitespaceNormalization_eq (textN : StdString) :
    whitespaceNormalization icu textN =
      Utf8.encode (whitespaceStage icu (icu.decodeUTF8 textN)) := by
  rw [whitespaceNormalization, fromUTF8, whitespaceLoop_eq, toUTF8String_encode]

theorem repetitionNormalization_eq (textN : StdString) :
    repetitionNormalization icu textN =
      Utf8.encode (repetitionStage (icu.decodeUTF8 textN)) := by
  rw [repetitionNormalization, fromUTF8, repetitionLoop_eq, toUTF8String_encode]

theorem leetspeakNormalization_eq (textN : StdString) (isCyrillic : Bool) :
    leetspeakNormalization icu textN isCyrillic =
      Utf8.encode (leetStage isCyrillic (icu.decodeUTF8 textN)) := by
  rw [leetspeakNormalization, fromUTF8, leetspeakLoop_eq, toUTF8String_encode]

theorem isPrimarilyCyrillic_eq (textN : StdString) :
    isPrimarilyCyrillic icu textN = primarilyCyrillic (icu.decodeUTF8 textN) := by
  simp only [isPrimarilyCyrillic, fromUTF8, countLoop_eq, primarilyCyrillic]

theorem tokenize_eq (textN : StdString) :
    tokenize icu textN = (tokens icu (icu.decodeUTF8 textN)).map Utf8.encode := by
  rw [tokenize, fromUTF8, tokenizeLoop_eq]

theorem wordChecking_encode (words : List (List Char)) :
    wordChecking (words.map Utf8.encode) =
      decide (forbiddenWordThreshold < forbiddenCount words) := by
  simp only [wordChecking, forbiddenWordCount, forbiddenCount, List.countP_map]
  rfl

/-! ## The pipeline -/

theorem decode_textNormalization (h : icu.Transcodes) (textN : StdString) :
    icu.decodeUTF8 (textNormalization icu textN) = normalizedText icu textN := by
  rw [textNormalization_eq, h.decode_encode]

theorem collapsedText_eq (h : icu.Transcodes) (textN : StdString) :
    collapsedText icu textN = Utf8.encode (collapsed icu (normalizedText icu textN)) := by
  simp only [collapsedText, repetitionNormalization_eq, whitespaceNormalization_eq,
    invisibleCharacterNormalization_eq, decode_textNormalization h, h.decode_encode, collapsed]

theorem orientation_eq (h : icu.Transcodes) (textN : StdString) :
    isPrimarilyCyrillic icu (collapsedText icu textN) =
      orientation icu (normalizedText icu textN) := by
  rw [isPrimarilyCyrillic_eq, collapsedText_eq h, h.decode_encode, orientation]

theorem textProcessingTokens_eq (h : icu.Transcodes) (textN : StdString) :
    textProcessingTokens icu textN =
      (tokensUnder icu (orientation icu (normalizedText icu textN))
        (normalizedText icu textN)).map Utf8.encode := by
  rw [textProcessingTokens, orientation_eq h, tokenize_eq, leetspeakNormalization_eq,
    h.decode_encode, collapsedText_eq h, h.decode_encode, tokensUnder]

/-- `TextProcessing` is the verdict of the composed list functions. -/
theorem textProcessing_eq_verdict (h : icu.Transcodes) (textN : StdString) :
    textProcessing icu textN = verdict icu (normalizedText icu textN) := by
  rw [textProcessing, textProcessingTokens_eq h, wordChecking_encode, verdict]

/-! ## The whole refinement, stage by stage -/

/-- A loop over a text reads its code points once each and in order, never half of a pair. -/
structure Walks {σ : Type} (text : UnicodeString) (cs : List Char) (body : Nat → σ → Nat × σ)
    (s : σ) : Prop where
  visits : Utf16.visited text body s = cs.map Char.toNat
  no_surrogate : ∀ c ∈ Utf16.visited text body s, ¬ (0xD800 ≤ c ∧ c ≤ 0xDFFF)

/-- The text a stage builds: well-formed, and read back unchanged by the next stage. -/
structure HandsOver (icu : Icu) (result : UnicodeString) (cs : List Char) : Prop where
  result_eq : result = Utf16.encode cs
  wellFormed : Utf16.wellFormed result = true
  handover : icu.fromUTF8 (toUTF8String result) = result

theorem walks_encode {σ : Type} {cs : List Char} {body : Nat → σ → Nat × σ} {step : σ → Char → σ}
    (h : ForLoop.Follows Utf16.width cs body step) (s : σ) :
    Walks (Utf16.encode cs) cs body s := by
  refine ⟨Utf16.visited_encode h s, ?_⟩
  intro c hc
  rw [Utf16.visited_encode h s] at hc
  rcases List.mem_map.1 hc with ⟨d, _, rfl⟩
  -- what is visited are code points, and no code point is a surrogate
  have hd := Utf16.char_scalar d
  omega

theorem handsOver_encode (h : icu.Transcodes) (cs : List Char) :
    HandsOver icu (Utf16.encode cs) cs := by
  refine ⟨rfl, Utf16.wellFormed_encode cs, ?_⟩
  rw [toUTF8String_encode, fromUTF8, h.decode_encode]

/-- The six loops on the text decoded from `textN`, and the pipeline they make up. -/
structure StagesRefine (icu : Icu) (textN : StdString) : Prop where
  invisible_walks : Walks (icu.fromUTF8 textN) (icu.decodeUTF8 textN)
    (invisibleBody (icu.fromUTF8 textN)) []
  whitespace_walks : Walks (icu.fromUTF8 textN) (icu.decodeUTF8 textN)
    (whitespaceBody icu (icu.fromUTF8 textN)) ⟨[], false⟩
  repetition_walks : Walks (icu.fromUTF8 textN) (icu.decodeUTF8 textN)
    (repetitionBody (icu.fromUTF8 textN)) ⟨[], 0⟩
  leetspeak_walks : ∀ isCyrillic, Walks (icu.fromUTF8 textN) (icu.decodeUTF8 textN)
    (leetspeakBody isCyrillic (icu.fromUTF8 textN)) []
  count_walks : Walks (icu.fromUTF8 textN) (icu.decodeUTF8 textN)
    (countBody (icu.fromUTF8 textN)) ⟨0, 0⟩
  tokenize_walks : Walks (icu.fromUTF8 textN) (icu.decodeUTF8 textN)
    (tokenizeBody icu (icu.fromUTF8 textN)) ⟨[], []⟩
  invisible_result : HandsOver icu
    (ForLoop.run (icu.fromUTF8 textN).length (invisibleBody (icu.fromUTF8 textN)) [])
    ((icu.decodeUTF8 textN).filter (fun c => !invisible c.toNat))
  whitespace_result : HandsOver icu
    (ForLoop.run (icu.fromUTF8 textN).length (whitespaceBody icu (icu.fromUTF8 textN))
      ⟨[], false⟩).result
    (squeeze icu.isWhitespace ' ' true (icu.decodeUTF8 textN))
  repetition_result : HandsOver icu
    (ForLoop.run (icu.fromUTF8 textN).length (repetitionBody (icu.fromUTF8 textN)) ⟨[], 0⟩).result
    (dropRepeats null (icu.decodeUTF8 textN))
  leetspeak_result : ∀ isCyrillic, HandsOver icu
    (ForLoop.run (icu.fromUTF8 textN).length (leetspeakBody isCyrillic (icu.fromUTF8 textN)) [])
    ((icu.decodeUTF8 textN).map (leetChar isCyrillic))
  count_result : isPrimarilyCyrillic icu textN =
    decide ((icu.decodeUTF8 textN).countP latin < (icu.decodeUTF8 textN).countP cyrillic)
  tokenize_result : tokenize icu textN =
    (runs icu.isalnum (icu.decodeUTF8 textN)).map Utf8.encode
  pipeline : textProcessing icu textN =
    verdict icu (icu.decodeUTF8 (textNormalization icu textN))

/-- On every byte string the UTF-16 loops compute the list functions, and `TextProcessing` is their
composition after `TextNormalization`. -/
theorem stagesRefine (h : icu.Transcodes) (textN : StdString) : StagesRefine icu textN where
  invisible_walks := walks_encode (follows_invisible _) _
  whitespace_walks := walks_encode (follows_whitespace icu _) _
  repetition_walks := walks_encode (follows_repetition _) _
  leetspeak_walks := fun isCyrillic => walks_encode (follows_leetspeak isCyrillic _) _
  count_walks := walks_encode (follows_count _) _
  tokenize_walks := walks_encode (follows_tokenize icu _) _
  invisible_result := by
    rw [fromUTF8, invisibleLoop_eq]
    exact handsOver_encode h _
  whitespace_result := by
    rw [fromUTF8, whitespaceLoop_eq]
    exact handsOver_encode h _
  repetition_result := by
    rw [fromUTF8, repetitionLoop_eq]
    exact handsOver_encode h _
  leetspeak_result := by
    intro isCyrillic
    rw [fromUTF8, leetspeakLoop_eq]
    exact handsOver_encode h _
  count_result := isPrimarilyCyrillic_eq textN
  tokenize_result := tokenize_eq textN
  pipeline := by
    rw [decode_textNormalization h]
    exact textProcessing_eq_verdict h textN

/-- A text with a supplementary character between Latin and Cyrillic letters. -/
theorem stagesRefine_sample :
    StagesRefine SampleIcu.sampleIcu (Utf8.encode ['g', '😀', ' ', 'б']) :=
  stagesRefine SampleIcu.sample_transcodes _

end LoopRefinement
end ModerationService
