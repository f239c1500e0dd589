import ModerationService.Library.Int32Loop
import ModerationService.Service.Orientation

/-!
# Width32 — the loops in the integer widths of the source

The six loops with an `int32_t` index that is checked at every increment and at every access to the
text, the length of the text they build, the `int` counters of `IsPrimarilyCyrillic`, and the
`unsigned int` of `WordChecking`.  On a well-formed text whose length is an `int32_t` no check fails
(`inRange`): each loop is the one of the model, and the tokens are too few for the count to lose
anything.
-/

namespace ModerationService
namespace Width32

open Library Library.Runs Library.Collapse Icu CodePoints TextNormalization LeetspeakNormalization
open WordChecker TextProcessingConstants LoopRefinement ModerationService.Orientation

variable {icu : Icu} {σ : Type}

/-! ## The loop bodies -/

/-- `text.length()`. -/
def length (text : UnicodeString) : Int32 :=
  Int32.ofNat text.length

/-- `if (U16_IS_LEAD(text.charAt(i))) { i++; }`. -/
def skipTrail32 (text : UnicodeString) (i : Int32) : Option Int32 := do
  let unit ← Int32Loop.charAt text i
  if Utf16.isLead unit then Int32Loop.advance (length text) i else return i

/-- A body that acts on the code point read and ends with the surrogate step. -/
def charBody32 (step : UChar32 → σ → Option σ) (text : UnicodeString) (i : Int32) (s : σ) :
    Option (Int32 × σ) := do
  let character ← Int32Loop.char32At text i
  let s' ← step character s
  let i' ← skipTrail32 text i
  return (i', s')

/-- `append`, to a result whose own length is an `int32_t`. -/
def append32 (result : UnicodeString) (character : UChar32) : Option UnicodeString :=
  let result' := append result character
  if result'.length < 2 ^ 31 then some result' else none

def whitespaceStep32 (icu : Icu) (character : UChar32) (s : WhitespaceState) :
    Option WhitespaceState :=
  if icu.uIsWhitespace character then
    if !s.prev_space && decide (0 < length s.result) then do
      let result ← append32 s.result 0x20
      return { result := result, prev_space := true }
    else
      some s
  else do
    let result ← append32 s.result character
    return { result := result, prev_space := false }

def whitespaceBody32 (icu : Icu) (text : UnicodeString) :
    Int32 → WhitespaceState → Option (Int32 × WhitespaceState) :=
  charBody32 (whitespaceStep32 icu) text

def repetitionStep32 (character : UChar32) (s : RepetitionState) : Option RepetitionState :=
  if character ≠ s.prevChar then do
    let result ← append32 s.result character
    return { result := result, prevChar := character }
  else
    some s

def repetitionBody32 (text : UnicodeString) :
    Int32 → RepetitionState → Option (Int32 × RepetitionState) :=
  charBody32 repetitionStep32 text

def leetspeakBody32 (isCyrillic : Bool) (text : UnicodeString) :
    Int32 → UnicodeString → Option (Int32 × UnicodeString) :=
  charBody32 (fun character result => append32 result (normalized isCyrillic character)) text

/-- The `continue` leaves the surrogate step out. -/
def invisibleBody32 (text : UnicodeString) (i : Int32) (result : UnicodeString) :
    Option (Int32 × UnicodeString) := do
  let character ← Int32Loop.char32At text i
  if invisible character then
    return (i, result)
  else
    let result' ← append32 result character
    let i' ← skipTrail32 text i
    return (i', result')

structure LetterCounts32 where
  cyrillicCount : Int32
  latinCount : Int32

def countStep32 (character : UChar32) (s : LetterCounts32) : Option LetterCounts32 :=
  if cyrillicLetter character then do
    let cyrillicCount ← Int32Loop.succ s.cyrillicCount
    return { s with cyrillicCount := cyrillicCount }
  else if latinLetter character then do
    let latinCount ← Int32Loop.succ s.latinCount
    return { s with latinCount := latinCount }
  else
    some s

def countBody32 (text : UnicodeString) :
    Int32 → LetterCounts32 → Option (Int32 × LetterCounts32) :=
  charBody32 countStep32 text

def tokenizeBody32 (icu : Icu) (text : UnicodeString) (i : Int32) (s : TokenizeState) :
    Option (Int32 × TokenizeState) := do
  let character ← Int32Loop.char32At text i
  let s' := tokenizeStep icu character s
  let unit ← Int32Loop.charAt text i
  if Utf16.isLead unit then
    -- `i + 1` is computed only behind a lead surrogate
    let next ← Int32Loop.succ i
    if next < length text then
      let i' ← Int32Loop.advance (length text) i
      return (i', s')
    else
      return (i, s')
  else
    return (i, s')

/-! ## The functions around the loops that count -/

def isPrimarilyCyrillic32 (text : UnicodeString) : Option Bool := do
  let counts ← Int32Loop.run (length text) (countBody32 text) ⟨0, 0⟩
  return decide (counts.latinCount < counts.cyrillicCount)

def tokenize32 (icu : Icu) (text : UnicodeString) : Option (List StdString) := do
  let s ← Int32Loop.run (length text) (tokenizeBody32 icu text) ⟨[], []⟩
  return (pushWord s).tokens

/-- `forbiddenWordCount > FORBIDDEN_WORD_THRESHOLD`, both of them `unsigned int`. -/
def wordChecking32 (textN : List StdString) : Bool :=
  decide (UInt32.ofNat forbiddenWordThreshold < forbiddenWordCount32 textN)

/-! ## Every access and every increment succeeds -/

theorem start_le (pre : List Char) (c : Char) (post : List Char) :
    ForLoop.extent Utf16.width pre + Utf16.width c ≤
      (Utf16.encode (pre ++ c :: post)).length := by
  rw [Utf16.length_encode, ForLoop.extent_append, ForLoop.extent_cons]
  omega

section Start

variable {pre post : List Char} {c : Char}
  (hlen : (Utf16.encode (pre ++ c :: post)).length < 2 ^ 31)

include hlen

theorem char32At_start :
    Int32Loop.char32At (Utf16.encode (pre ++ c :: post))
        (Int32.ofNat (ForLoop.extent Utf16.width pre)) = some c.toNat := by
  have hpos := Utf16.width_pos c
  have hstart := start_le pre c post
  rw [Int32Loop.char32At_ofNat (by omega) hlen, Utf16.char32At_encode]

theorem charAt_start :
    Int32Loop.charAt (Utf16.encode (pre ++ c :: post))
        (Int32.ofNat (ForLoop.extent Utf16.width pre)) =
      some (Utf16.charAt (Utf16.encode (pre ++ c :: post)) (ForLoop.extent Utf16.width pre)) := by
  have hpos := Utf16.width_pos c
  have hstart := start_le pre c post
  rw [Int32Loop.charAt_ofNat (by omega) hlen]

/-- The second increment of an iteration stays in the text: there is a trail surrogate. -/
theorem advance_start (hwidth : Utf16.width c = 2) :
    Int32Loop.advance (length (Utf16.encode (pre ++ c :: post)))
        (Int32.ofNat (ForLoop.extent Utf16.width pre)) =
      some (Int32.ofNat (ForLoop.extent Utf16.width pre + 1)) := by
  have hstart := start_le pre c post
  exact Int32Loop.advance_ofNat (by omega) hlen

theorem skipTrail32_start :
    skipTrail32 (Utf16.encode (pre ++ c :: post)) (Int32.ofNat (ForLoop.extent Utf16.width pre)) =
      some (Int32.ofNat (ForLoop.extent Utf16.width pre + (Utf16.width c - 1))) := by
  have hpos := Utf16.width_pos c
  have hle := Utf16.width_le_two c
  simp only [skipTrail32, charAt_start hlen, Option.bind_eq_bind, Option.bind_some,
    Utf16.isLead_charAt_encode]
  by_cases hwidth : Utf16.width c = 2
  · rw [if_pos (decide_eq_true hwidth), advance_start hlen hwidth, hwidth]
  · have hone : Utf16.width c = 1 := by
      omega
    simp [hone]

end Start

section Follows

variable {cs : List Char} (hlen : (Utf16.encode cs).length < 2 ^ 31)

include hlen

theorem follows32_char (step : UChar32 → σ → Option σ) :
    Int32Loop.Follows Utf16.width cs (charBody32 step (Utf16.encode cs))
      (fun s c => step c.toNat s) := by
  rintro pre c post s s' rfl hstep
  simp only [charBody32, char32At_start hlen, hstep, skipTrail32_start hlen, Option.bind_eq_bind,
    Option.bind_some, Option.pure_def]

theorem follows32_invisible :
    Int32Loop.Follows Utf16.width cs (invisibleBody32 (Utf16.encode cs))
      (fun result c => if visible c then append32 result c.toNat else some result) := by
  rintro pre c post s s' rfl hstep
  simp only [invisibleBody32, char32At_start hlen, skipTrail32_start hlen, Option.bind_eq_bind,
    Option.bind_some, Option.pure_def]
  cases hinv : invisible c.toNat with
  | true =>
      -- an invisible code point is a single unit
      have hwidth : Utf16.width c = 1 := Utf16.width_of_bmp (invisible_bmp hinv)
      have hsame : s = s' := by
        simpa [visible, hinv] using hstep
      simp [hwidth, hsame]
  | false =>
      have happend : append32 s c.toNat = some s' := by
        simpa [visible, hinv] using hstep
      simp [happend]

theorem follows32_tokenize (icu : Icu) :
    Int32Loop.Follows Utf16.width cs (tokenizeBody32 icu (Utf16.encode cs))
      (fun s c => some (tokenizeStep icu c.toNat s)) := by
  rintro pre c post s s' rfl hstep
  have hsame : tokenizeStep icu c.toNat s = s' := Option.some.inj hstep
  have hpos := Utf16.width_pos c
  have hle := Utf16.width_le_two c
  have hstart := start_le pre c post
  simp only [tokenizeBody32, char32At_start hlen, charAt_start hlen, Option.bind_eq_bind,
    Option.bind_some, Option.pure_def, Utf16.isLead_charAt_encode, hsame]
  by_cases hwidth : Utf16.width c = 2
  · -- `i + 1` is the index of the trail surrogate
    have hsucc : Int32Loop.succ (Int32.ofNat (ForLoop.extent Utf16.width pre)) =
        some (Int32.ofNat (ForLoop.extent Utf16.width pre + 1)) :=
      Int32Loop.succ_ofNat (by omega)
    have hinside : Int32.ofNat (ForLoop.extent Utf16.width pre + 1) <
        length (Utf16.encode (pre ++ c :: post)) :=
      (Int32Loop.ofNat_lt_ofNat (by omega) hlen).2 (by omega)
    rw [if_pos (decide_eq_true hwidth), hsucc, Option.bind_some, if_pos hinside,
      advance_start hlen hwidth, hwidth]
    rfl
  · have hone : Utf16.width c = 1 := by
      omega
    simp [hone]

end Follows

/-! ## Every state stays in range -/

theorem append32_eq {result : UnicodeString} {c : Char}
    (h : result.length + Utf16.width c < 2 ^ 31) :
    append32 result c.toNat = some (append result c.toNat) := by
  rw [append32, length_append, if_pos h]

theorem grows_visible :
    ForLoop.Grows List.length Utf16.width
      (fun result c => if visible c then append result c.toNat else result) := by
  intro result c
  cases hc : visible c with
  | true => simp [hc, length_append]
  | false => simp [hc]

theorem visible32_eq {result : UnicodeString} {c : Char}
    (h : result.length + Utf16.width c < 2 ^ 31) :
    (if visible c then append32 result c.toNat else some result) =
      some (if visible c then append result c.toNat else result) := by
  cases hc : visible c with
  | true => simp [append32_eq h]
  | false => simp

theorem grows_whitespaceStep (icu : Icu) :
    ForLoop.Grows (fun s : WhitespaceState => s.result.length) Utf16.width
      (fun s c => whitespaceStep icu c.toNat s) := by
  intro s c
  have hpos := Utf16.width_pos c
  have hblank : (append s.result 0x20).length = s.result.length + 1 := length_append s.result ' '
  simp only [whitespaceStep]
  split_ifs
  · simp only [hblank]
    omega
  · exact Nat.le_add_right _ _
  · simp [length_append]

theorem whitespaceStep32_eq {s : WhitespaceState} {c : Char}
    (h : s.result.length + Utf16.width c < 2 ^ 31) :
    whitespaceStep32 icu c.toNat s = some (whitespaceStep icu c.toNat s) := by
  have hpos := Utf16.width_pos c
  -- a blank is no longer than the whitespace it stands for
  have hblank : append32 s.result 0x20 = some (append s.result 0x20) :=
    append32_eq (c := ' ') (Nat.lt_of_le_of_lt (Nat.add_le_add_left hpos _) h)
  have hlength : decide (0 < length s.result) = decide (0 < s.result.length) :=
    decide_eq_decide.2 (Int32Loop.ofNat_lt_ofNat (m := 0) (by omega) (by omega))
  simp only [whitespaceStep32, whitespaceStep, hlength, hblank, append32_eq h, Option.bind_eq_bind,
    Option.bind_some, Option.pure_def]
  split_ifs <;> rfl

theorem grows_repetitionStep :
    ForLoop.Grows (fun s : RepetitionState => s.result.length) Utf16.width
      (fun s c => repetitionStep c.toNat s) := by
  intro s c
  simp only [repetitionStep]
  split_ifs
  · simp [length_append]
  · exact Nat.le_add_right _ _

theorem repetitionStep32_eq {s : RepetitionState} {c : Char}
    (h : s.result.length + Utf16.width c < 2 ^ 31) :
    repetitionStep32 c.toNat s = some (repetitionStep c.toNat s) := by
  simp only [repetitionStep32, repetitionStep, append32_eq h, Option.bind_eq_bind,
    Option.bind_some, Option.pure_def]
  split_ifs <;> rfl

/-- What a table writes takes a single unit. -/
theorem entries_bmp : ∀ isCyrillic, ∀ entry ∈ tables isCyrillic, entry.2.toNat < 0x10000 := by
  decide +kernel

theorem width_leetChar_le (isCyrillic : Bool) (c : Char) :
    Utf16.width (leetChar isCyrillic c) ≤ Utf16.width c := by
  rcases leetChar_cases isCyrillic c with hkept | hentry
  · rw [hkept]
  · rw [Utf16.width_of_bmp (entries_bmp isCyrillic _ hentry)]
    exact Utf16.width_pos c

theorem grows_leetspeak (isCyrillic : Bool) :
    ForLoop.Grows List.length Utf16.width
      (fun result c => append result (normalized isCyrillic c.toNat)) := by
  intro result c
  have hwidth := width_leetChar_le isCyrillic c
  simp only [normalized_toNat, length_append]
  omega

theorem leetspeak32_eq (isCyrillic : Bool) {result : UnicodeString} {c : Char}
    (h : result.length + Utf16.width c < 2 ^ 31) :
    append32 result (normalized isCyrillic c.toNat) =
      some (append result (normalized isCyrillic c.toNat)) := by
  have hwidth := width_leetChar_le isCyrillic c
  rw [normalized_toNat]
  exact append32_eq (by omega)

/-- The two counters in the `int`s of the source. -/
def narrow (s : LetterCounts) : LetterCounts32 :=
  ⟨Int32.ofNat s.cyrillicCount, Int32.ofNat s.latinCount⟩

/-- An iteration increments one counter at most, and there are two of them. -/
theorem grows_countStep :
    ForLoop.Grows (fun s : LetterCounts => s.cyrillicCount + s.latinCount) Utf16.width
      (fun s c => countStep c.toNat s) := by
  intro s c
  have hpos := Utf16.width_pos c
  simp only [countStep]
  split_ifs
  · show s.cyrillicCount + 1 + s.latinCount ≤ s.cyrillicCount + s.latinCount + Utf16.width c
    omega
  · show s.cyrillicCount + (s.latinCount + 1) ≤ s.cyrillicCount + s.latinCount + Utf16.width c
    omega
  · exact Nat.le_add_right _ _

theorem countStep32_eq {s : LetterCounts} {c : Char}
    (h : s.cyrillicCount + s.latinCount + Utf16.width c < 2 ^ 31) :
    countStep32 c.toNat (narrow s) =
      some (narrow (countStep c.toNat s)) := by
  have hpos := Utf16.width_pos c
  have hcyrillic : Int32Loop.succ (narrow s).cyrillicCount =
      some (Int32.ofNat (s.cyrillicCount + 1)) :=
    Int32Loop.succ_ofNat (by omega)
  have hlatin : Int32Loop.succ (narrow s).latinCount =
      some (Int32.ofNat (s.latinCount + 1)) :=
    Int32Loop.succ_ofNat (by omega)
  simp only [countStep32, countStep, hcyrillic, hlatin, Option.bind_eq_bind, Option.bind_some,
    Option.pure_def]
  split_ifs <;> rfl

/-! ## Every loop is the one of the model -/

/-- A loop whose checks all succeed: it has the result of the model, and builds a text that is no
longer than the one it reads. -/
structure Checked (text : UnicodeString) (checkedBody : Int32 → σ → Option (Int32 × σ))
    (body : Nat → σ → Nat × σ) (built : σ → UnicodeString) (s : σ) : Prop where
  run_eq : Int32Loop.run (length text) checkedBody s = some (ForLoop.run text.length body s)
  built_le : (built (ForLoop.run text.length body s)).length ≤ text.length

/-- The two counters of `isPrimarilyCyrillic`. -/
def letterCounts (text : UnicodeString) : LetterCounts :=
  ForLoop.run text.length (countBody text) ⟨0, 0⟩

/-- The tokens of a text, as `tokenize` has them of the text it decodes. -/
def tokenizeText (icu : Icu) (text : UnicodeString) : List StdString :=
  (pushWord (ForLoop.run text.length (tokenizeBody icu text) ⟨[], []⟩)).tokens

theorem tokenize_eq_tokenizeText (textN : StdString) :
    tokenize icu textN = tokenizeText icu (icu.fromUTF8 textN) := rfl

/-- The pipeline on `text` in the integer widths of the source: the six loops with every index and
counter checked, and the `unsigned int` of the verdict. -/
structure InRange (icu : Icu) (text : UnicodeString) : Prop where
  invisible : Checked text (invisibleBody32 text) (invisibleBody text) id []
  whitespace : Checked text (whitespaceBody32 icu text) (whitespaceBody icu text)
    WhitespaceState.result ⟨[], false⟩
  repetition : Checked text (repetitionBody32 text) (repetitionBody text)
    RepetitionState.result ⟨[], 0⟩
  leetspeak : ∀ isCyrillic, Checked text (leetspeakBody32 isCyrillic text)
    (leetspeakBody isCyrillic text) id []
  counters : ∃ counts : LetterCounts32,
    Int32Loop.run (length text) (countBody32 text) ⟨0, 0⟩ = some counts ∧
      counts.cyrillicCount.toInt = (letterCounts text).cyrillicCount ∧
      counts.latinCount.toInt = (letterCounts text).latinCount
  orientation : isPrimarilyCyrillic32 text =
    some (decide ((letterCounts text).latinCount < (letterCounts text).cyrillicCount))
  tokenize : tokenize32 icu text = some (tokenizeText icu text)
  tokens_length : 2 * (tokenizeText icu text).length ≤ text.length + 1
  narrowing : (forbiddenWordCount32 (tokenizeText icu text)).toNat =
    forbiddenWordCount (tokenizeText icu text)
  verdict : wordChecking32 (tokenizeText icu text) = true ↔
    3 < (tokenizeText icu text).countP (fun word => decide (word ∈ forbiddenWords))

theorem letterCounts_le (cs : List Char) :
    (letterCounts (Utf16.encode cs)).cyrillicCount + (letterCounts (Utf16.encode cs)).latinCount ≤
      (Utf16.encode cs).length := by
  have hle := grows_countStep.foldl_le cs ⟨0, 0⟩
  rw [letterCounts, Utf16.run_encode (follows_count cs), Utf16.length_encode]
  simpa using hle

/-- Two tokens are separated by a code unit at least. -/
theorem length_tokenizeText_le (icu : Icu) (cs : List Char) :
    2 * (tokenizeText icu (Utf16.encode cs)).length ≤ (Utf16.encode cs).length + 1 := by
  have hruns := two_mul_length_runs_le (p := icu.isalnum) cs
  have hunits := Utf16.length_le_length_encode cs
  rw [tokenizeText, tokenizeLoop_eq, List.length_map, tokens]
  omega

theorem wordChecking32_eq {textN : List StdString} (h : textN.length < 2 ^ 32) :
    wordChecking32 textN = wordChecking textN := by
  have hcount := forbiddenWordCount32_eq h
  have hlt : UInt32.ofNat forbiddenWordThreshold < forbiddenWordCount32 textN ↔
      forbiddenWordThreshold < forbiddenWordCount textN := by
    rw [UInt32.lt_iff_toNat_lt, hcount]
    exact Iff.rfl
  exact decide_eq_decide.2 hlt

section Encoded

variable {cs : List Char} (hlen : (Utf16.encode cs).length < 2 ^ 31)

include hlen

theorem checked_encode {checkedBody : Int32 → σ → Option (Int32 × σ)} {body : Nat → σ → Nat × σ}
    {built : σ → UnicodeString} {step : σ → Char → σ} {checked : σ → Char → Option σ} {s : σ}
    (hgrows : ForLoop.Grows (fun s => (built s).length) Utf16.width step)
    (hchecked : ∀ s c, (built s).length + Utf16.width c < 2 ^ 31 →
      checked s c = some (step s c))
    (h : ForLoop.Follows Utf16.width cs body step)
    (h32 : Int32Loop.Follows Utf16.width cs checkedBody checked) (hs : built s = []) :
    Checked (Utf16.encode cs) checkedBody body built s := by
  have hzero : (built s).length = 0 := by
    simp [hs]
  constructor
  · exact Int32Loop.run_encode id hgrows hchecked h h32 (by omega)
  · have hle := hgrows.foldl_le cs s
    rw [Utf16.run_encode h, Utf16.length_encode]
    omega

theorem countLoop32_eq :
    Int32Loop.run (length (Utf16.encode cs)) (countBody32 (Utf16.encode cs)) ⟨0, 0⟩ =
      some (narrow (letterCounts (Utf16.encode cs))) :=
  Int32Loop.run_encode narrow grows_countStep (fun _ _ h => countStep32_eq h)
    (follows_count cs) (follows32_char hlen countStep32) (t := ⟨0, 0⟩) (by simpa using hlen)

theorem isPrimarilyCyrillic32_eq :
    isPrimarilyCyrillic32 (Utf16.encode cs) =
      some (decide ((letterCounts (Utf16.encode cs)).latinCount <
        (letterCounts (Utf16.encode cs)).cyrillicCount)) := by
  have hle := letterCounts_le cs
  have hlt : (narrow (letterCounts (Utf16.encode cs))).latinCount <
        (narrow (letterCounts (Utf16.encode cs))).cyrillicCount ↔
      (letterCounts (Utf16.encode cs)).latinCount <
        (letterCounts (Utf16.encode cs)).cyrillicCount :=
    Int32Loop.ofNat_lt_ofNat (by omega) (by omega)
  simp only [isPrimarilyCyrillic32, countLoop32_eq hlen, Option.bind_eq_bind, Option.bind_some,
    Option.pure_def, hlt]

theorem tokenize32_eq (icu : Icu) :
    tokenize32 icu (Utf16.encode cs) = some (tokenizeText icu (Utf16.encode cs)) := by
  -- the words are byte strings, so an iteration adds nothing to a 32-bit quantity
  have hgrows : ForLoop.Grows (fun _ : TokenizeState => 0) Utf16.width
      (fun s c => tokenizeStep icu c.toNat s) := fun _ _ => Nat.zero_le _
  have hloop : Int32Loop.run (length (Utf16.encode cs)) (tokenizeBody32 icu (Utf16.encode cs))
      ⟨[], []⟩ = some (ForLoop.run (Utf16.encode cs).length (tokenizeBody icu (Utf16.encode cs))
        ⟨[], []⟩) :=
    Int32Loop.run_encode id hgrows (fun _ _ _ => rfl) (follows_tokenize icu cs)
      (follows32_tokenize hlen icu) (by omega)
  simp only [tokenize32, hloop, Option.bind_eq_bind, Option.bind_some, Option.pure_def]
  rfl

theorem inRange_encode (icu : Icu) : InRange icu (Utf16.encode cs) := by
  have htokens := length_tokenizeText_le icu cs
  have hcounts := letterCounts_le cs
  have hfew : (tokenizeText icu (Utf16.encode cs)).length < 2 ^ 32 := by
    omega
  constructor
  case invisible =>
    exact checked_encode hlen grows_visible (fun _ _ h => visible32_eq h) (follows_invisible cs)
      (follows32_invisible hlen) rfl
  case whitespace =>
    exact checked_encode hlen (grows_whitespaceStep icu) (fun _ _ h => whitespaceStep32_eq h)
      (follows_whitespace icu cs) (follows32_char hlen _) rfl
  case repetition =>
    exact checked_encode hlen grows_repetitionStep (fun _ _ h => repetitionStep32_eq h)
      (follows_repetition cs) (follows32_char hlen _) rfl
  case leetspeak =>
    intro isCyrillic
    exact checked_encode hlen (grows_leetspeak isCyrillic)
      (fun _ _ h => leetspeak32_eq isCyrillic h) (follows_leetspeak isCyrillic cs)
      (follows32_char hlen _) rfl
  case counters =>
    exact ⟨_, countLoop32_eq hlen, Int32.toInt_ofNat_of_lt (by omega),
      Int32.toInt_ofNat_of_lt (by omega)⟩
  case orientation =>
    exact isPrimarilyCyrillic32_eq hlen
  case tokenize =>
    exact tokenize32_eq hlen icu
  case tokens_length =>
    exact htokens
  case narrowing =>
    exact forbiddenWordCount32_eq hfew
  case verdict =>
    rw [wordChecking32_eq hfew]
    exact decide_eq_true_iff

end Encoded

/-- No 32-bit quantity wraps and no index leaves the text, up to the longest text there is. -/
theorem inRange {text : UnicodeString} (h : Utf16.wellFormed text = true)
    (hlen : text.length ≤ 2 ^ 31 - 1) : InRange icu text := by
  have htext := Utf16.encode_decode h
  rw [← htext] at hlen ⊢
  exact inRange_encode (by omega) icu

/-- A text that ends with a surrogate pair. -/
theorem inRange_sample : InRange SampleIcu.sampleIcu (Utf16.encode ['g', 'a', 'y', ' ', '😀']) :=
  inRange (by decide) (by decide)

end Width32
end ModerationService
